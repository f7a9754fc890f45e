import Courier.Recipient
import Mathlib

/-!
Which recipients are accepted. The check reads an address from the left, cuts it at the first at
sign and at every point, and looks at each label by itself. What it accepts are the words of a
grammar, in which an address is put together from its parts, and the same words are matched by a
regular expression, although that says nothing about how a label is to be taken apart.
-/
namespace Courier

namespace Text

theorem splitOn_eq (separator : Char) (cs : List Char) :
    splitOn separator cs = cs.splitOn separator := by
  induction cs with
  | nil => rfl
  | cons c r ih =>
      rw [List.splitOn_cons_eq_if_modifyHead, splitOn, ih]
      by_cases same : c = separator
      · simp [same]
      · simp only [same, if_false, beq_iff_eq]
        cases split : r.splitOn separator with
        | nil => exact absurd split (List.splitOn_ne_nil separator r)
        | cons piece rest => rfl

theorem intercalate_cons (separator : Char) (l : List Char) (labels : List (List Char)) :
    [separator].intercalate (l :: labels) = l ++ labels.flatMap (separator :: ·) := by
  induction labels generalizing l with
  | nil => simp
  | cons next labels ih => rw [List.intercalate_cons_cons, ih, List.flatMap_cons]; simp

end Text

namespace Recipient

open Text

variable {c : Char} {cs : List Char}

/-- A part of a domain name. -/
structure Label (cs : List Char) : Prop where
  filled : cs ≠ []
  chars : ∀ c ∈ cs, c.isAlphanum = true ∨ c = '-'
  first : cs.head? ≠ some '-'
  last : cs.getLast? ≠ some '-'

inductive Domain : List Char → Prop
  | labels {labels : List (List Char)} (several : 2 ≤ labels.length)
      (each : ∀ l ∈ labels, Label l) :
      Domain (['.'].intercalate labels)

inductive Address : List Char → Prop
  | at {user domain : List Char} (filled : user ≠ [])
      (chars : ∀ c ∈ user, c.isAlphanum = true ∨ c ∈ localMarks) (inDomain : Domain domain) :
      Address (user ++ '@' :: domain)

/-- A telephone number in international form. -/
inductive Telephone : List Char → Prop
  | number {first : Char} {rest : List Char} (isDigit : first.isDigit = true)
      (positive : first ≠ '0')
      (digits : ∀ c ∈ rest, c.isDigit = true) (enough : 6 ≤ rest.length)
      (short : rest.length ≤ 14) :
      Telephone ('+' :: first :: rest)

theorem isLetterOrDigit_eq (c : Char) : isLetterOrDigit c = c.isAlphanum := by
  rw [Bool.eq_iff_iff]
  simp only [isLetterOrDigit, Char.isAlphanum, Char.isAlpha, Char.isUpper,
    Char.isLower, Char.isDigit,
    Bool.or_eq_true, Bool.and_eq_true, decide_eq_true_eq, ge_iff_le, UInt32.le_iff_toNat_le]
  show _ ↔ ((65 ≤ c.toNat ∧ c.toNat ≤ 90) ∨ (97 ≤ c.toNat ∧ c.toNat ≤ 122)) ∨
      48 ≤ c.toNat ∧ c.toNat ≤ 57
  omega

theorem isAsciiDigit_eq (c : Char) : isAsciiDigit c = c.isDigit := by
  rw [Bool.eq_iff_iff]
  simp only [isAsciiDigit, Char.isDigit, Bool.and_eq_true, decide_eq_true_eq, ge_iff_le,
    UInt32.le_iff_toNat_le]
  rfl

theorem isLabel_iff : isLabel cs = true ↔ Label cs := by
  simp only [isLabel, isLetterOrDigit_eq, Bool.and_eq_true, List.all_eq_true,
    Bool.or_eq_true, beq_iff_eq, bne_iff_ne]
  constructor
  · rintro ⟨⟨⟨filled, chars⟩, first⟩, last⟩
    exact ⟨by simpa using filled, chars, first, last⟩
  · rintro ⟨filled, chars, first, last⟩
    exact ⟨⟨⟨by simpa using filled, chars⟩, first⟩, last⟩

theorem Label.no_point (h : Label cs) : '.' ∉ cs := by
  intro mem
  rcases h.chars '.' mem with letter | hyphen
  · exact absurd letter (by decide)
  · exact absurd hyphen (by decide)

theorem isDomain_iff : isDomain cs = true ↔ Domain cs := by
  simp only [isDomain, splitOn_eq, Bool.and_eq_true, decide_eq_true_eq,
    List.all_eq_true, isLabel_iff]
  constructor
  · rintro ⟨several, each⟩
    have joined : ['.'].intercalate (cs.splitOn '.') = cs := List.intercalate_splitOn '.'
    rw [← joined]
    exact .labels several each
  · rintro ⟨several, each⟩
    rename_i labels
    have filled : labels ≠ [] := by
      rintro rfl
      cases several
    rw [List.splitOn_intercalate '.' (fun l mem => (each l mem).no_point) filled]
    exact ⟨several, each⟩

theorem isLocalChar_iff : isLocalChar c = true ↔ c.isAlphanum = true ∨ c ∈ localMarks := by
  rw [isLocalChar, isLetterOrDigit_eq, Bool.or_eq_true, List.contains_iff_mem]

theorem isAddress_iff : isAddress cs = true ↔ Address cs := by
  constructor
  · intro accepted
    unfold isAddress at accepted
    split at accepted
    · cases accepted
    · rename_i user domain found
      simp only [Bool.and_eq_true, List.all_eq_true, isLocalChar_iff, isDomain_iff] at accepted
      obtain ⟨⟨filled, chars⟩, inDomain⟩ := accepted
      rw [(cut?_eq_some.mp found).1]
      exact .at (by simpa using filled) chars inDomain
  · rintro ⟨filled, chars, inDomain⟩
    rename_i user domain
    have absent : '@' ∉ user := by
      intro mem
      exact absurd (chars '@' mem) (by decide)
    have found : cut? '@' (user ++ '@' :: domain) = some (user, domain) :=
      cut?_eq_some.mpr ⟨rfl, absent⟩
    simp only [isAddress, found, Bool.and_eq_true, List.all_eq_true, isLocalChar_iff,
      isDomain_iff]
    exact ⟨⟨by simpa using filled, chars⟩, inDomain⟩

theorem isTelephone_iff : isTelephone cs = true ↔ Telephone cs := by
  constructor
  · intro accepted
    unfold isTelephone at accepted
    split at accepted
    · simp only [isAsciiDigit_eq, Bool.and_eq_true, List.all_eq_true, bne_iff_ne,
        decide_eq_true_eq] at accepted
      obtain ⟨⟨⟨⟨isDigit, positive⟩, digits⟩, enough⟩, short⟩ := accepted
      exact .number isDigit positive digits enough short
    · cases accepted
  · rintro ⟨isDigit, positive, digits, enough, short⟩
    simp only [isTelephone, isAsciiDigit_eq, Bool.and_eq_true, List.all_eq_true, bne_iff_ne,
      decide_eq_true_eq]
    exact ⟨⟨⟨⟨isDigit, positive⟩, digits⟩, enough⟩, short⟩

namespace Pattern

variable {chars : List Char} {p q : RegularExpression Char} {w : List Char}

def oneOf (chars : List Char) : RegularExpression Char := chars.foldr (fun c p => .char c + p) 0

def optional (p : RegularExpression Char) : RegularExpression Char := 1 + p

def repeated (p : RegularExpression Char) : RegularExpression Char := p * p.star

def range (first last : Char) : List Char :=
  (List.range' first.toNat (last.toNat + 1 - first.toNat)).map Char.ofNat

def digits : List Char := range '0' '9'

def alphanumerics : List Char := range 'A' 'Z' ++ range 'a' 'z' ++ digits

/-- A letter or digit, which may be followed by any letters, digits and hyphens and another letter
or digit. -/
def label : RegularExpression Char :=
  oneOf alphanumerics * optional ((oneOf ('-' :: alphanumerics)).star * oneOf alphanumerics)

def domain : RegularExpression Char := label * repeated (.char '.' * label)

def address : RegularExpression Char :=
  repeated (oneOf (alphanumerics ++ localMarks)) * (.char '@' * domain)

def telephone : RegularExpression Char :=
  .char '+' * (oneOf (range '1' '9') * (oneOf digits ^ 6 * optional (oneOf digits) ^ 8))

theorem mem_mul : w ∈ (p * q).matches' ↔ ∃ a ∈ p.matches', ∃ b ∈ q.matches', a ++ b = w :=
  Language.mem_mul

theorem mem_optional : w ∈ (optional p).matches' ↔ w = [] ∨ w ∈ p.matches' := Iff.rfl

theorem mem_oneOf : w ∈ (oneOf chars).matches' ↔ ∃ c ∈ chars, w = [c] := by
  induction chars with
  | nil => exact ⟨False.elim, fun ⟨_, mem, _⟩ => nomatch mem⟩
  | cons c chars ih =>
      show w = [c] ∨ w ∈ (oneOf chars).matches' ↔ _
      rw [ih, List.exists_mem_cons_iff]

theorem mem_star_oneOf : w ∈ (oneOf chars).star.matches' ↔ ∀ c ∈ w, c ∈ chars := by
  rw [RegularExpression.matches'_star, Language.mem_kstar]
  constructor
  · rintro ⟨pieces, rfl, each⟩ c mem
    obtain ⟨piece, mem, inside⟩ := List.mem_flatten.mp mem
    obtain ⟨d, known, rfl⟩ := mem_oneOf.mp (each piece mem)
    obtain rfl := List.mem_singleton.mp inside
    exact known
  · intro each
    refine ⟨w.map fun c => [c], (List.flatMap_singleton' w).symm, ?_⟩
    intro piece mem
    obtain ⟨c, inside, rfl⟩ := List.mem_map.mp mem
    exact mem_oneOf.mpr ⟨c, each c inside, rfl⟩

theorem mem_oneOf_mul :
    w ∈ (oneOf chars * p).matches' ↔ ∃ c ∈ chars, ∃ r ∈ p.matches', w = c :: r := by
  rw [mem_mul]
  constructor
  · rintro ⟨a, first, r, rest, rfl⟩
    obtain ⟨c, known, rfl⟩ := mem_oneOf.mp first
    exact ⟨c, known, r, rest, rfl⟩
  · rintro ⟨c, known, r, rest, rfl⟩
    exact ⟨[c], mem_oneOf.mpr ⟨c, known, rfl⟩, r, rest, rfl⟩

theorem mem_repeated_oneOf :
    w ∈ (repeated (oneOf chars)).matches' ↔ w ≠ [] ∧ ∀ c ∈ w, c ∈ chars := by
  rw [repeated, mem_oneOf_mul]
  constructor
  · rintro ⟨c, known, r, rest, rfl⟩
    exact ⟨List.cons_ne_nil c r, List.forall_mem_cons.mpr ⟨known, mem_star_oneOf.mp rest⟩⟩
  · rintro ⟨filled, each⟩
    obtain ⟨c, r, rfl⟩ := List.exists_cons_of_ne_nil filled
    obtain ⟨known, rest⟩ := List.forall_mem_cons.mp each
    exact ⟨c, known, r, mem_star_oneOf.mpr rest, rfl⟩

theorem mem_oneOf_pow {n : Nat} :
    w ∈ (oneOf chars ^ n).matches' ↔ w.length = n ∧ ∀ c ∈ w, c ∈ chars := by
  induction n generalizing w with
  | zero =>
      show w = [] ↔ _
      cases w with
      | nil => simp
      | cons c w => simp
  | succ n ih =>
      rw [RegularExpression.matches'_pow, pow_succ', ← RegularExpression.matches'_pow,
        ← RegularExpression.matches'_mul, mem_oneOf_mul]
      simp only [ih]
      constructor
      · rintro ⟨c, known, r, ⟨rfl, rest⟩, rfl⟩
        exact ⟨rfl, List.forall_mem_cons.mpr ⟨known, rest⟩⟩
      · rintro ⟨length, each⟩
        obtain ⟨c, r, rfl⟩ := List.exists_cons_of_length_eq_add_one length
        obtain ⟨known, rest⟩ := List.forall_mem_cons.mp each
        exact ⟨c, known, r, ⟨Nat.succ.inj length, rest⟩, rfl⟩

theorem mem_optional_pow {n : Nat} :
    w ∈ (optional (oneOf chars) ^ n).matches' ↔ w.length ≤ n ∧ ∀ c ∈ w, c ∈ chars := by
  induction n generalizing w with
  | zero =>
      show w = [] ↔ _
      cases w with
      | nil => simp
      | cons c w => simp
  | succ n ih =>
      rw [RegularExpression.matches'_pow, pow_succ', ← RegularExpression.matches'_pow,
        ← RegularExpression.matches'_mul, mem_mul]
      simp only [ih, mem_optional]
      constructor
      · rintro ⟨a, rfl | first, r, ⟨length, rest⟩, rfl⟩
        · exact ⟨Nat.le_succ_of_le length, rest⟩
        · obtain ⟨c, known, rfl⟩ := mem_oneOf.mp first
          exact ⟨Nat.succ_le_succ length, List.forall_mem_cons.mpr ⟨known, rest⟩⟩
      · rintro ⟨length, each⟩
        cases w with
        | nil => exact ⟨[], .inl rfl, [], ⟨Nat.zero_le n, each⟩, rfl⟩
        | cons c r =>
            obtain ⟨known, rest⟩ := List.forall_mem_cons.mp each
            exact ⟨[c], .inr (mem_oneOf.mpr ⟨c, known, rfl⟩), r,
              ⟨Nat.le_of_succ_le_succ length, rest⟩, rfl⟩

theorem mem_range {first last c : Char} (plain : last.toNat < 0xD800) :
    c ∈ range first last ↔ first.toNat ≤ c.toNat ∧ c.toNat ≤ last.toNat := by
  simp only [range, List.mem_map, List.mem_range'_1]
  constructor
  · rintro ⟨n, bounds, rfl⟩
    have valid : n.isValidChar := .inl (by omega)
    have same : (Char.ofNat n).toNat = n := by
      rw [Char.ofNat, dif_pos valid]
      rfl
    omega
  · intro bounds
    exact ⟨c.toNat, by omega, Char.ofNat_toNat c⟩

theorem mem_digits {c : Char} : c ∈ digits ↔ c.isDigit = true := by
  rw [digits, mem_range (by decide), ← isAsciiDigit_eq, isAsciiDigit, Bool.and_eq_true,
    decide_eq_true_eq, decide_eq_true_eq]
  rfl

theorem mem_alphanumerics {c : Char} : c ∈ alphanumerics ↔ c.isAlphanum = true := by
  rw [alphanumerics, List.mem_append, List.mem_append, mem_range (by decide), mem_range (by decide),
    mem_digits, ← isLetterOrDigit_eq, ← isAsciiDigit_eq]
  simp only [isLetterOrDigit, isAsciiDigit, Bool.or_eq_true, Bool.and_eq_true, decide_eq_true_eq]
  show ((65 ≤ c.toNat ∧ c.toNat ≤ 90) ∨ 97 ≤ c.toNat ∧ c.toNat ≤ 122) ∨ _ ↔ _
  omega

theorem matches_label : w ∈ label.matches' ↔ Label w := by
  have hyphen : '-' ∉ alphanumerics := by
    rw [mem_alphanumerics]
    decide
  rw [label, mem_oneOf_mul]
  constructor
  · rintro ⟨a, first, r, rest, rfl⟩
    have begins : (a :: r).head? ≠ some '-' := by
      rintro ⟨⟩
      exact hyphen first
    rcases rest with rfl | rest
    · exact ⟨List.cons_ne_nil a [], by simp [← mem_alphanumerics, first], begins, begins⟩
    · obtain ⟨middle, inside, last, final, rfl⟩ := mem_mul.mp rest
      obtain ⟨b, ends, rfl⟩ := mem_oneOf.mp final
      refine ⟨List.cons_ne_nil a _, ?_, begins, ?_⟩
      · intro c mem
        rw [← mem_alphanumerics]
        rcases List.mem_cons.mp mem with rfl | mem
        · exact .inl first
        · rcases List.mem_append.mp mem with mem | mem
          · exact (List.mem_cons.mp (mem_star_oneOf.mp inside c mem)).symm
          · obtain rfl := List.mem_singleton.mp mem
            exact .inl ends
      · rw [← List.cons_append, List.getLast?_concat]
        rintro ⟨⟩
        exact hyphen ends
  · rintro ⟨filled, chars, first, last⟩
    obtain ⟨a, r, rfl⟩ := List.exists_cons_of_ne_nil filled
    simp only [← mem_alphanumerics] at chars
    have begins : a ∈ alphanumerics :=
      (chars a List.mem_cons_self).resolve_right fun same => first (congrArg some same)
    refine ⟨a, begins, r, ?_, rfl⟩
    rcases List.eq_nil_or_concat r with rfl | ⟨middle, b, rfl⟩
    · exact .inl rfl
    · rw [List.concat_eq_append] at *
      rw [← List.cons_append, List.getLast?_concat] at last
      have ends : b ∈ alphanumerics :=
        (chars b (by simp)).resolve_right fun same => last (congrArg some same)
      refine .inr (mem_mul.mpr ⟨middle, mem_star_oneOf.mpr ?_, [b],
        mem_oneOf.mpr ⟨b, ends, rfl⟩, rfl⟩)
      intro c mem
      exact List.mem_cons.mpr (chars c (by simp [mem])).symm

theorem mem_star_point : w ∈ (RegularExpression.char '.' * label).star.matches' ↔
    ∃ labels : List (List Char), (∀ l ∈ labels, Label l) ∧ w = labels.flatMap ('.' :: ·) := by
  rw [RegularExpression.matches'_star, Language.mem_kstar]
  constructor
  · rintro ⟨pieces, rfl, each⟩
    induction pieces with
    | nil => exact ⟨[], by simp, rfl⟩
    | cons piece pieces ih =>
        obtain ⟨first, rest⟩ := List.forall_mem_cons.mp each
        obtain ⟨labels, known, same⟩ := ih rest
        obtain ⟨_, rfl, l, isLabel, rfl⟩ := mem_mul.mp first
        refine ⟨l :: labels, List.forall_mem_cons.mpr ⟨matches_label.mp isLabel, known⟩, ?_⟩
        rw [List.flatten_cons, same, List.flatMap_cons]
        rfl
  · rintro ⟨labels, known, rfl⟩
    refine ⟨labels.map ('.' :: ·), rfl, ?_⟩
    intro piece mem
    obtain ⟨l, inside, rfl⟩ := List.mem_map.mp mem
    exact mem_mul.mpr ⟨['.'], rfl, l, matches_label.mpr (known l inside), rfl⟩

theorem matches_domain : w ∈ domain.matches' ↔ Domain w := by
  rw [domain, repeated, mem_mul]
  constructor
  · rintro ⟨l, first, rest, more, rfl⟩
    obtain ⟨_, pointed, _, others, rfl⟩ := mem_mul.mp more
    obtain ⟨_, rfl, l', second, rfl⟩ := mem_mul.mp pointed
    obtain ⟨labels, known, rfl⟩ := mem_star_point.mp others
    have several : 2 ≤ (l :: l' :: labels).length := Nat.le_add_left 2 labels.length
    have each : ∀ x ∈ l :: l' :: labels, Label x :=
      List.forall_mem_cons.mpr ⟨matches_label.mp first,
        List.forall_mem_cons.mpr ⟨matches_label.mp second, known⟩⟩
    have joined := Domain.labels several each
    rwa [intercalate_cons, List.flatMap_cons] at joined
  · rintro ⟨several, each⟩
    rename_i labels
    match labels with
    | [] | [_] => simp at several
    | l :: l' :: labels =>
        obtain ⟨first, each⟩ := List.forall_mem_cons.mp each
        obtain ⟨second, known⟩ := List.forall_mem_cons.mp each
        rw [intercalate_cons, List.flatMap_cons]
        refine ⟨l, matches_label.mpr first, _, mem_mul.mpr ⟨'.' :: l', ?_, _, ?_, rfl⟩, rfl⟩
        · exact mem_mul.mpr ⟨['.'], rfl, l', matches_label.mpr second, rfl⟩
        · exact mem_star_point.mpr ⟨labels, known, rfl⟩

theorem matches_address : w ∈ address.matches' ↔ Address w := by
  rw [address, mem_mul]
  constructor
  · rintro ⟨user, first, rest, more, rfl⟩
    obtain ⟨_, rfl, domain, inDomain, rfl⟩ := mem_mul.mp more
    obtain ⟨filled, chars⟩ := mem_repeated_oneOf.mp first
    simp only [List.mem_append, mem_alphanumerics] at chars
    exact .at filled chars (matches_domain.mp inDomain)
  · rintro ⟨filled, chars, inDomain⟩
    rename_i user domain
    refine ⟨user, mem_repeated_oneOf.mpr ⟨filled, ?_⟩, '@' :: domain, ?_, rfl⟩
    · simpa only [List.mem_append, mem_alphanumerics] using chars
    · exact mem_mul.mpr ⟨['@'], rfl, domain, matches_domain.mpr inDomain, rfl⟩

theorem mem_positive {c : Char} : c ∈ range '1' '9' ↔ c.isDigit = true ∧ c ≠ '0' := by
  rw [mem_range (by decide), ← mem_digits, digits, mem_range (by decide), ← Char.toNat_inj.ne]
  show 49 ≤ c.toNat ∧ c.toNat ≤ 57 ↔ (48 ≤ c.toNat ∧ c.toNat ≤ 57) ∧ c.toNat ≠ 48
  omega

theorem matches_telephone : w ∈ telephone.matches' ↔ Telephone w := by
  rw [telephone, mem_mul]
  constructor
  · rintro ⟨_, rfl, number, afterPlus, rfl⟩
    obtain ⟨first, begins, rest, afterFirst, rfl⟩ := mem_oneOf_mul.mp afterPlus
    obtain ⟨isDigit, positive⟩ := mem_positive.mp begins
    obtain ⟨required, six, possible, eight, rfl⟩ := mem_mul.mp afterFirst
    obtain ⟨six, must⟩ := mem_oneOf_pow.mp six
    obtain ⟨eight, may⟩ := mem_optional_pow.mp eight
    simp only [mem_digits] at must may
    refine .number isDigit positive (List.forall_mem_append.mpr ⟨must, may⟩) ?_ ?_
    · rw [List.length_append]
      omega
    · rw [List.length_append]
      omega
  · rintro ⟨isDigit, positive, all, enough, short⟩
    rename_i first rest
    refine ⟨['+'], rfl, first :: rest, ?_, rfl⟩
    refine mem_oneOf_mul.mpr ⟨first, mem_positive.mpr ⟨isDigit, positive⟩, rest, ?_, rfl⟩
    simp only [← mem_digits] at all
    refine mem_mul.mpr ⟨rest.take 6, mem_oneOf_pow.mpr ⟨?_, ?_⟩, rest.drop 6,
      mem_optional_pow.mpr ⟨?_, ?_⟩, List.take_append_drop 6 rest⟩
    · rw [List.length_take]
      omega
    · exact fun c mem => all c (List.mem_of_mem_take mem)
    · rw [List.length_drop]
      omega
    · exact fun c mem => all c (List.mem_of_mem_drop mem)

end Pattern

theorem isBlank_of_isAlphanum (letter : c.isAlphanum = true) : isBlank c = false := by
  rw [← isLetterOrDigit_eq] at letter
  simp only [isLetterOrDigit, Bool.or_eq_true, Bool.and_eq_true, decide_eq_true_eq] at letter
  simp only [isBlank, Bool.or_eq_false_iff, Bool.and_eq_false_iff, decide_eq_false_iff_not,
    beq_eq_false_iff_ne]
  omega

theorem Domain.solid (h : Domain cs) : ∀ c ∈ cs, isBlank c = false := by
  obtain ⟨several, each⟩ := h
  rename_i labels
  have inLabel (l : List Char) (known : l ∈ labels) (c : Char) (mem : c ∈ l) :
      isBlank c = false := by
    rcases (each l known).chars c mem with letter | rfl
    · exact isBlank_of_isAlphanum letter
    · rfl
  cases labels with
  | nil => cases several
  | cons l labels =>
      intro c mem
      rw [intercalate_cons] at mem
      rcases List.mem_append.mp mem with first | later
      · exact inLabel l List.mem_cons_self c first
      · obtain ⟨next, known, mem⟩ := List.mem_flatMap.mp later
        rcases List.mem_cons.mp mem with rfl | mem
        · rfl
        · exact inLabel next (List.mem_cons_of_mem l known) c mem

theorem Address.solid (h : Address cs) : ∀ c ∈ cs, isBlank c = false := by
  obtain ⟨filled, chars, inDomain⟩ := h
  have marks : localMarks.any isBlank = false := by decide
  intro c mem
  rcases List.mem_append.mp mem with mem | mem
  · rcases chars c mem with letter | mark
    · exact isBlank_of_isAlphanum letter
    · exact Bool.eq_false_iff.mpr (List.any_eq_false.mp marks c mark)
  · rcases List.mem_cons.mp mem with rfl | mem
    · rfl
    · exact inDomain.solid c mem

theorem Telephone.solid (h : Telephone cs) : ∀ c ∈ cs, isBlank c = false := by
  obtain ⟨isDigit, positive, digits, enough, short⟩ := h
  have solid (c : Char) (digit : c.isDigit = true) : isBlank c = false :=
    isBlank_of_isAlphanum (by rw [Char.isAlphanum, digit, Bool.or_true])
  intro c mem
  rcases List.mem_cons.mp mem with rfl | mem
  · rfl
  · rcases List.mem_cons.mp mem with rfl | mem
    · exact solid c isDigit
    · exact solid c (digits c mem)

theorem validate_eq_ok {channel : Channel} {s : String} :
    validate channel s = .ok () ↔ isValid channel s = true := by
  unfold validate
  split
  · rename_i valid
    simp [valid]
  · rename_i invalid
    simp [invalid]

theorem isValid_push {s : String} : isValid .push s = true ↔
    s ≠ "" ∧ s.utf8ByteSize ≤ deviceTokenLimit ∧ ∀ c ∈ s.toList, isBlank c = false := by
  simp only [isValid, Bool.and_eq_true, bne_iff_ne, decide_eq_true_eq, Bool.not_eq_true',
    List.any_eq_false, Bool.not_eq_true, and_assoc]

/-- The check accepts exactly the words of the grammar of its channel, which are those that the
regular expression matches as a whole; and what it accepts has no blanks at its ends that could be
trimmed. -/
theorem accepts_grammar (s : String) :
    (validate .email s = .ok () ↔ s.utf8ByteSize ≤ 254 ∧ Address s.toList) ∧
      (validate .sms s = .ok () ↔ Telephone s.toList) ∧
      (validate .push s = .ok () ↔
        s ≠ "" ∧ s.utf8ByteSize ≤ 4096 ∧ ∀ c ∈ s.toList, isBlank c = false) ∧
      (Address s.toList ↔ s.toList ∈ Pattern.address.matches') ∧
      (Telephone s.toList ↔ s.toList ∈ Pattern.telephone.matches') ∧
      ∀ channel, validate channel s = .ok () → trimmed s = s := by
  have email : validate .email s = .ok () ↔ s.utf8ByteSize ≤ 254 ∧ Address s.toList := by
    rw [validate_eq_ok, isValid, Bool.and_eq_true, decide_eq_true_eq, isAddress_iff]
    rfl
  have sms : validate .sms s = .ok () ↔ Telephone s.toList := by
    rw [validate_eq_ok, isValid, isTelephone_iff]
  have push : validate .push s = .ok () ↔
      s ≠ "" ∧ s.utf8ByteSize ≤ 4096 ∧ ∀ c ∈ s.toList, isBlank c = false :=
    validate_eq_ok.trans isValid_push
  refine ⟨email, sms, push, Pattern.matches_address.symm, Pattern.matches_telephone.symm, ?_⟩
  intro channel accepted
  apply trimmed_eq_self
  cases channel with
  | email => exact (email.mp accepted).2.solid
  | sms => exact (sms.mp accepted).solid
  | push => exact (push.mp accepted).2.2

/-- Single characters and hyphens inside labels, and marks of every kind. -/
theorem accepts_grammar_of_marked : validate .email "o'neil+x@a.b-1.c" = .ok () ∧
    Address "o'neil+x@a.b-1.c".toList ∧ trimmed "o'neil+x@a.b-1.c" = "o'neil+x@a.b-1.c" := by
  obtain ⟨email, _, _, _, _, trims⟩ := accepts_grammar "o'neil+x@a.b-1.c"
  have accepted : validate .email "o'neil+x@a.b-1.c" = .ok () := rfl
  exact ⟨accepted, (email.mp accepted).2, trims .email accepted⟩

example : isValid .email "a@b-.c" = false ∧ isValid .email "a@b..c" = false ∧
    isValid .sms "+1234567\n" = false := ⟨rfl, rfl, rfl⟩

end Recipient

end Courier
