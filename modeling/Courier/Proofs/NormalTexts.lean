import Courier.Proofs.Replacement
import Mathlib.Data.List.Infix

/-!
Plain text is in normal form. Where nothing is to be decoded, one pass leaves nothing for another
one: an opening bracket that stays has no closing bracket behind it, or one right behind it, and
neither the removal of tags nor the shortening of blank stretches changes that; and behind a line
break that stays, the next one comes at once or only after something that is not blank.
-/
namespace Courier

open Text

namespace PlainText

variable {Match : List Char → List Char → Prop} {opening closing a : Char} {inner : Char → Prop}
  {new cs r s : List Char}

/-- There are `inner` characters between an opening and a closing one at no place, not even a single
one. -/
def Clear (opening closing : Char) (inner : Char → Prop) (cs : List Char) : Prop :=
  ∀ gap, opening :: (gap ++ [closing]) <:+: cs → (∀ c ∈ gap, inner c) → gap = []

/-- A closing character behind `inner` characters comes first. -/
def Shut (closing : Char) (inner : Char → Prop) (cs : List Char) : Prop :=
  ∀ gap rest, cs = gap ++ closing :: rest → (∀ c ∈ gap, inner c) → gap = []

/-- Nothing is left that looks like a tag. -/
def Tagless (cs : List Char) : Prop := Clear '<' '>' (· ≠ '>') cs

/-- Line breaks with only blanks between them have nothing between them. -/
def Tight (cs : List Char) : Prop := Clear '\n' '\n' (isBlank · = true) cs

theorem clear_nil : Clear opening closing inner [] :=
  fun _ inside => nomatch List.infix_nil.mp inside

theorem clear_cons : Clear opening closing inner (a :: s) ↔
    (a = opening → Shut closing inner s) ∧ Clear opening closing inner s := by
  constructor
  · intro clear
    refine ⟨?_, fun gap inside => clear gap (inside.trans (List.suffix_cons a s).isInfix)⟩
    rintro rfl gap rest rfl
    refine clear gap (List.IsPrefix.isInfix ⟨rest, ?_⟩)
    simp
  · rintro ⟨shut, clear⟩ gap inside
    rcases List.infix_cons_iff.mp inside with begins | later
    · obtain ⟨rest, whole⟩ := begins
      rw [List.cons_append] at whole
      obtain ⟨same, behind⟩ := List.cons.inj whole
      exact shut same.symm gap rest (by simpa using behind.symm)
    · exact clear gap later

theorem Clear.inside (clear : Clear opening closing inner cs) (inside : s <:+: cs) :
    Clear opening closing inner s := fun gap within => clear gap (within.trans inside)

theorem shut_bracket : Shut '>' (· ≠ '>') cs ↔ cs.head? = some '>' ∨ '>' ∉ cs := by
  constructor
  · intro shut
    by_cases mem : '>' ∈ cs
    · obtain ⟨gap, rest, rfl, absent⟩ := List.eq_append_cons_of_mem mem
      obtain rfl := shut gap rest rfl fun c mem same => absent (same ▸ mem)
      exact .inl rfl
    · exact .inr mem
  · rintro closed gap rest rfl apart
    cases gap with
    | nil => rfl
    | cons c gap =>
        rcases closed with first | absent
        · exact absurd (Option.some.inj first) (apart c List.mem_cons_self)
        · exact absurd (List.mem_append_right _ List.mem_cons_self) absent

/-- Behind an opening bracket that begins no tag. -/
theorem shut_of_no_tag (unmatched : ∀ m rest, '<' :: r = m ++ rest → ¬Tag m rest) :
    Shut '>' (· ≠ '>') r := by
  rintro gap rest rfl apart
  by_contra filled
  refine unmatched ('<' :: (gap ++ ['>'])) rest (by simp) ⟨gap, filled, ?_, rfl⟩
  exact fun mem => apart '>' mem rfl

/-- Replacement neither brings in a closing bracket nor removes the first one. -/
theorem Shut.replaced (shut : Shut '>' (· ≠ '>') cs) (h : Replaced Match new cs s)
    (free : ∀ m rest, Match m rest → ∃ a r, m = a :: r ∧ a ≠ '>') (other : '>' ∉ new) :
    Shut '>' (· ≠ '>') s := by
  rw [shut_bracket] at *
  refine shut.imp (h.head? free) fun absent mem => ?_
  exact (h.mem mem).elim absent other

theorem Tag.begins {m rest : List Char} (isTag : Tag m rest) : ∃ a r, m = a :: r ∧ a ≠ '>' := by
  obtain ⟨inside, _, _, rfl⟩ := isTag
  exact ⟨'<', _, rfl, by decide⟩

theorem Stretch.begins {m rest : List Char} (isStretch : Stretch m rest) :
    ∃ a r, m = a :: r ∧ a ≠ '>' := by
  obtain ⟨gap, _, rfl, _⟩ := isStretch
  exact ⟨'\n', _, rfl, by decide⟩

theorem tagless_of_replaced (h : Replaced Tag [] cs s) : Tagless s := by
  induction h with
  | nil => exact clear_nil
  | keep unmatched onward ih =>
      refine clear_cons.mpr ⟨?_, ih⟩
      rintro rfl
      exact (shut_of_no_tag unmatched).replaced onward (fun m rest => Tag.begins) List.not_mem_nil
  | replace found onward ih => exact ih

theorem Tagless.replaced (tagless : Tagless cs) (h : Replaced Stretch ['\n', '\n'] cs s) :
    Tagless s := by
  induction h with
  | nil => exact clear_nil
  | keep unmatched onward ih =>
      obtain ⟨shut, tagless⟩ := clear_cons.mp tagless
      refine clear_cons.mpr ⟨fun opens => ?_, ih tagless⟩
      exact (shut opens).replaced onward (fun m rest => Stretch.begins) (by decide)
  | @replace m rest s found onward ih =>
      have below : Tagless s := ih (tagless.inside (List.suffix_append m rest).isInfix)
      have above : Tagless ('\n' :: s) := clear_cons.mpr ⟨nofun, below⟩
      exact clear_cons.mpr ⟨nofun, above⟩

theorem shut_of_not_breaks (unbroken : ¬Breaks cs) : Shut '\n' (isBlank · = true) cs :=
  fun gap rest whole blank => absurd ⟨gap, rest, whole, blank⟩ unbroken

theorem breaks_of_replaced (h : Replaced Stretch ['\n', '\n'] cs s) (breaks : Breaks s) :
    Breaks cs := by
  induction h with
  | nil => exact breaks
  | keep unmatched onward ih =>
      exact breaks_cons.mpr ((breaks_cons.mp breaks).imp_right (And.imp_right ih))
  | replace found onward ih =>
      obtain ⟨gap, _, rfl, _⟩ := found
      exact breaks_cons.mpr (.inl rfl)

/-- Over blanks to a line break, there is also a last line break. -/
theorem exists_stretch (breaks : Breaks r) : ∃ m rest, '\n' :: r = m ++ rest ∧ Stretch m rest := by
  rcases stretchLength_spec r with ⟨_, unbroken⟩ | ⟨gap, rest, rfl, blank, last, _⟩
  · exact absurd breaks unbroken
  · exact ⟨'\n' :: (gap ++ ['\n']), rest, by simp, gap, blank, rfl, last⟩

theorem tight_of_replaced (h : Replaced Stretch ['\n', '\n'] cs s) : Tight s := by
  induction h with
  | nil => exact clear_nil
  | @keep c r s unmatched onward ih =>
      refine clear_cons.mpr ⟨?_, ih⟩
      rintro rfl
      refine shut_of_not_breaks fun breaks => ?_
      obtain ⟨m, rest, whole, isStretch⟩ := exists_stretch (breaks_of_replaced onward breaks)
      exact unmatched m rest whole isStretch
  | @replace m rest s found onward ih =>
      obtain ⟨gap, _, rfl, last⟩ := found
      have unbroken : ¬Breaks s := fun breaks => last (breaks_of_replaced onward breaks)
      have above : Tight ('\n' :: s) := clear_cons.mpr ⟨fun _ => shut_of_not_breaks unbroken, ih⟩
      refine clear_cons.mpr ⟨fun _ gap rest whole blank => ?_, above⟩
      cases gap with
      | nil => rfl
      | cons c gap =>
          obtain ⟨rfl, behind⟩ := List.cons.inj whole
          exact absurd ⟨gap, rest, behind, (List.forall_mem_cons.mp blank).2⟩ unbroken

/-- Behind a line break, blanks have at most one other one. -/
theorem count_le_of_shut (shut : Shut '\n' (isBlank · = true) cs)
    (blank : ∀ c ∈ cs, isBlank c = true) :
    cs.count '\n' ≤ 1 := by
  by_cases mem : '\n' ∈ cs
  · obtain ⟨gap, rest, rfl, _⟩ := List.eq_append_cons_of_mem mem
    obtain rfl := shut gap rest rfl fun c inside => blank c (List.mem_append_left _ inside)
    have absent : '\n' ∉ rest := by
      intro another
      obtain ⟨gap, rest, rfl⟩ := List.append_of_mem another
      refine absurd (shut ('\n' :: gap) rest rfl fun c inside => blank c ?_) (List.cons_ne_nil _ _)
      show c ∈ ('\n' :: gap) ++ '\n' :: rest
      exact List.mem_append_left _ inside
    rw [List.nil_append, List.count_cons_self, List.count_eq_zero_of_not_mem absent]
  · rw [List.count_eq_zero_of_not_mem mem]
    exact Nat.zero_le 1

/-- Blanks have at most two line breaks among them. -/
theorem Tight.count_le (tight : Tight cs) (blank : ∀ c ∈ cs, isBlank c = true) :
    cs.count '\n' ≤ 2 := by
  induction cs with
  | nil => exact Nat.zero_le 2
  | cons c r ih =>
      obtain ⟨shut, tight⟩ := clear_cons.mp tight
      obtain ⟨_, behind⟩ := List.forall_mem_cons.mp blank
      by_cases isBreak : c = '\n'
      · subst isBreak
        rw [List.count_cons_self]
        exact Nat.succ_le_succ (count_le_of_shut (shut rfl) behind)
      · rw [List.count_cons_of_ne isBreak]
        exact ih tight behind

/-- What one pass leaves of a text without entities. -/
structure Normal (cs : List Char) : Prop where
  plain : '&' ∉ cs
  tagless : Tagless cs
  tight : Tight cs
  first : ∀ c ∈ cs.head?, isBlank c = false
  last : ∀ c ∈ cs.getLast?, isBlank c = false

theorem decode_of_not_mem {table : List (String × Char)}
    (named : ∀ e ∈ table, e.1.toList.head? = some '&') (absent : '&' ∉ cs) :
    table.foldl (fun text (name, c) => replaceAll name.toList [c] text) cs = cs := by
  induction table with
  | nil => rfl
  | cons e table ih =>
      obtain ⟨first, named⟩ := List.forall_mem_cons.mp named
      obtain ⟨body, same⟩ := List.head?_eq_some_iff.mp first
      have unchanged : replaceAll e.1.toList [e.2] cs = cs := by
        rw [same, replaceAll_of_not_mem body [e.2] absent]
      exact (congrArg (List.foldl _ · table) unchanged).trans (ih named)

theorem decodeEntities_of_not_mem (absent : '&' ∉ cs) : decodeEntities cs = cs :=
  decode_of_not_mem (by decide) absent

theorem normal_ofHtmlChars (absent : '&' ∉ cs) : Normal (ofHtmlChars cs) := by
  have removed := withoutTags_replaced cs
  have undecoded : '&' ∉ withoutTags cs := fun mem => (removed.mem mem).elim absent List.not_mem_nil
  have shortened := withoutBlankLines_replaced (withoutTags cs)
  have trimmed := trim_infix (withoutBlankLines (withoutTags cs))
  rw [ofHtmlChars, decodeEntities_of_not_mem undecoded]
  exact {
    plain := fun mem => (shortened.mem (trimmed.subset mem)).elim undecoded (by decide)
    tagless := ((tagless_of_replaced removed).replaced shortened).inside trimmed
    tight := (tight_of_replaced shortened).inside trimmed
    first := trim_first _
    last := trim_last _ }

theorem Tagless.withoutTags_eq (tagless : Tagless cs) : withoutTags cs = cs := by
  refine (withoutTags_replaced cs).eq_self ?_
  rintro m rest inside ⟨between, filled, absent, rfl⟩
  refine absurd (tagless between ((List.prefix_append _ rest).isInfix.trans inside.isInfix) ?_)
    filled
  exact fun c mem same => absent (same ▸ mem)

theorem Tight.withoutBlankLines_eq (tight : Tight cs) : withoutBlankLines cs = cs := by
  refine (withoutBlankLines_replaced cs).eq_self ?_
  rintro m rest inside ⟨gap, blank, rfl, _⟩
  obtain rfl := tight gap ((List.prefix_append _ rest).isInfix.trans inside.isInfix) blank
  rfl

theorem Normal.ofHtmlChars_eq (normal : Normal cs) : ofHtmlChars cs = cs := by
  rw [ofHtmlChars, normal.tagless.withoutTags_eq, decodeEntities_of_not_mem normal.plain,
    normal.tight.withoutBlankLines_eq, trim_eq_self normal.first normal.last]

/-- One pass reaches a normal form, and another one changes nothing. -/
theorem ofHtml_normal (h : String) (plain : '&' ∉ h.toList) :
    ofHtml (ofHtml h) = ofHtml h ∧ Normal (ofHtml h).toList ∧
      ∀ stretch, stretch <:+: (ofHtml h).toList → (∀ c ∈ stretch, isBlank c = true) →
        stretch.count '\n' ≤ 2 := by
  have normal : Normal (ofHtml h).toList := by
    rw [ofHtml, String.toList_ofList]
    exact normal_ofHtmlChars plain
  refine ⟨?_, normal, ?_⟩
  · rw [ofHtml, normal.ofHtmlChars_eq, String.ofList_toList]
  · intro stretch inside blank
    have tight : Tight stretch := normal.tight.inside inside
    exact tight.count_le blank

/-- Brackets that come together, one that is never closed, and line breaks with blanks between
them. -/
theorem ofHtml_normal_of_nested : '&' ∉ "<<>a\n \n\n<b>><c ".toList ∧
    ofHtml "<<>a\n \n\n<b>><c " = "a\n\n><c" ∧ ofHtml "a\n\n><c" = "a\n\n><c" := by
  have plain : '&' ∉ "<<>a\n \n\n<b>><c ".toList := by decide
  have first : ofHtml "<<>a\n \n\n<b>><c " = "a\n\n><c" := by decide
  obtain ⟨again, _⟩ := ofHtml_normal "<<>a\n \n\n<b>><c " plain
  rw [first] at again
  exact ⟨plain, first, again⟩

end PlainText

end Courier
