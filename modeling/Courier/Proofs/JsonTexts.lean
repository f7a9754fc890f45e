import Courier.Json.Decoder
import Courier.Json.Printer
import Courier.Proofs.Numerals

/-!
JSON text that is read back as what it was written for. `Json.Reads` says that a decoder reads a
value from the front of any text that begins with the JSON form of the value: there are lemmas for
strings, for whole numbers, and for records that are written member by member.
-/
namespace Courier.Json

open Courier.Text

section Strings

variable {c e : Char} {rest : List Char}

theorem stringBody_of_escape (known : escaped? e = some c) (rest : List Char) :
    stringBody ('\\' :: e :: rest) = (stringBody rest).map fun (s, r) => (c :: s, r) := by
  rw [stringBody.eq_def]
  split
  · rename_i same
    cases same
  · rename_i same
    cases same
  · rename_i same
    cases same
    cases known
  · rename_i same
    cases same
    simp only [known]
    cases stringBody rest <;> rfl
  · rename_i other same
    cases same
    exact absurd rfl (other e rest rfl)

theorem stringBody_of_number {n : Nat} (low : n < 32) (rest : List Char) :
    stringBody ('\\' :: 'u' :: (hexDigits 4 n ++ rest)) =
      (stringBody rest).map fun (s, r) => (Char.ofNat n :: s, r) := by
  obtain ⟨a, b, c, d, four⟩ : ∃ a b c d, hexDigits 4 n = [a, b, c, d] := ⟨_, _, _, _, rfl⟩
  have number : hexNumber? [a, b, c, d] = some n := by
    rw [← four]
    exact hexNumber?_hexDigits (by omega)
  have lower : isLowSurrogate n = false := by simp [isLowSurrogate]; omega
  have higher : isHighSurrogate n = false := by simp [isHighSurrogate]; omega
  rw [four, stringBody.eq_def]
  simp only [List.cons_append, List.nil_append, number, lower, higher, Bool.false_eq_true, if_false]
  cases stringBody rest <;> rfl

theorem stringBody_of_plain (quote : c ≠ '"') (backslash : c ≠ '\\') (visible : ¬c.toNat < 32)
    (rest : List Char) :
    stringBody (c :: rest) = (stringBody rest).map fun (s, r) => (c :: s, r) := by
  rw [stringBody.eq_def]
  split
  · rename_i same
    cases same
  · rename_i same
    cases same
    exact absurd rfl quote
  · rename_i same
    cases same
    exact absurd rfl backslash
  · rename_i same
    cases same
    exact absurd rfl backslash
  · rename_i same
    cases same
    rw [if_neg (by simp [visible, backslash])]
    cases stringBody rest <;> rfl

theorem stringBody_escapeChar (c : Char) (rest : List Char) :
    stringBody (escapeChar c ++ rest) = (stringBody rest).map fun (s, r) => (c :: s, r) := by
  unfold escapeChar
  split
  · subst c
    exact stringBody_of_escape rfl rest
  rename_i quote
  split
  · subst c
    exact stringBody_of_escape rfl rest
  rename_i backslash
  split
  · subst c
    exact stringBody_of_escape rfl rest
  split
  · subst c
    exact stringBody_of_escape rfl rest
  split
  · subst c
    exact stringBody_of_escape rfl rest
  split
  · rename_i value
    obtain rfl : Char.ofNat 8 = c := by rw [← value, Char.ofNat_toNat]
    exact stringBody_of_escape rfl rest
  split
  · rename_i value
    obtain rfl : Char.ofNat 12 = c := by rw [← value, Char.ofNat_toNat]
    exact stringBody_of_escape rfl rest
  split
  · rename_i control
    have read := stringBody_of_number control rest
    rwa [Char.ofNat_toNat] at read
  · rename_i visible
    exact stringBody_of_plain quote backslash visible rest

theorem stringBody_escaped (cs rest : List Char) :
    stringBody (cs.flatMap escapeChar ++ '"' :: rest) = .ok (cs, rest) := by
  induction cs with
  | nil => rfl
  | cons c cs ih =>
      rw [List.flatMap_cons, List.append_assoc, stringBody_escapeChar, ih]
      rfl

theorem stringToken_quoted (s : String) (rest : List Char) :
    stringToken (quoted s ++ rest) = .ok (s, rest) := by
  have body := stringBody_escaped s.toList rest
  simp only [quoted, List.cons_append, List.append_assoc, List.nil_append, stringToken, body,
    Except.map, String.ofList_toList]

end Strings

section Numbers

variable {n start : Nat} {rest : List Char}

/-- What follows a value: nothing, a comma or a closing bracket. -/
def Ends (rest : List Char) : Prop := ∀ c ∈ rest.head?, c = ',' ∨ c = '\x7d' ∨ c = ']'

theorem afterWhole_of_ends (ends : Ends rest) :
    afterWhole false n rest = .ok (.integer n, rest) := by
  unfold afterWhole
  split
  · rcases ends _ rfl with same | same | same <;> cases same
  · rcases ends _ rfl with same | same | same <;> cases same
  · rcases ends _ rfl with same | same | same <;> cases same
  · rfl

theorem le_of_decimalNumber? {ds : List Char}
    (denotes : ds.foldlM (fun n c => (digitValue? c).map fun d => 10 * n + d) start = some n) :
    start ≤ n := by
  induction ds generalizing start with
  | nil => exact Nat.le_of_eq (Option.some.inj denotes)
  | cons c ds ih =>
      rw [List.foldlM_cons] at denotes
      obtain ⟨m, first, rest⟩ := Option.bind_eq_some_iff.mp denotes
      obtain ⟨d, _, rfl⟩ := Option.map_eq_some_iff.mp first
      have later := ih rest
      omega

theorem wholePart_digits {ds : List Char} (ends : Ends rest) (fits : n < significandLimit)
    (denotes : ds.foldlM (fun n c => (digitValue? c).map fun d => 10 * n + d) start = some n) :
    wholePart false start (ds ++ rest) = .ok (.integer n, rest) := by
  induction ds generalizing start with
  | nil =>
      obtain rfl := Option.some.inj denotes
      have read := afterWhole_of_ends (n := start) ends
      cases rest with
      | nil => exact read
      | cons c rest =>
          have none : digitValue? c = none := by
            rcases ends c rfl with rfl | rfl | rfl <;> decide
          simp only [List.nil_append, wholePart, none, read]
  | cons c ds ih =>
      rw [List.foldlM_cons] at denotes
      obtain ⟨m, first, later⟩ := Option.bind_eq_some_iff.mp denotes
      obtain ⟨d, digit, rfl⟩ := Option.map_eq_some_iff.mp first
      have smaller := le_of_decimalNumber? later
      simp only [List.cons_append, wholePart, digit,
        if_neg (show ¬significandLimit ≤ 10 * start + d by omega)]
      exact ih later

theorem number_numeral (ends : Ends rest) (fits : n < significandLimit) :
    number (numeral n ++ rest) = .ok (.integer n, rest) := by
  have denotes := decimalNumber?_numeral n
  have digits : ∀ c ∈ numeral n, isDigit c = true := fun c => isDigit_of_mem_numeral
  by_cases zero : n = 0
  · subst n
    have first : (rest.head?.map isDigit).getD false = false := by
      cases rest with
      | nil => rfl
      | cons c rest => rcases ends c rfl with rfl | rfl | rfl <;> rfl
    show unsignedNumber false ('0' :: rest) = _
    simp only [unsignedNumber, first, Bool.false_eq_true, if_false, afterWhole_of_ends ends]
  · obtain ⟨c, cs, begins, other⟩ := numeral_of_pos (Nat.pos_of_ne_zero zero)
    have digit := digits c (begins ▸ List.mem_cons_self)
    have read := wholePart_digits ends fits denotes
    rw [begins, List.cons_append] at read ⊢
    unfold number
    split
    · rename_i same
      cases same
      cases digit
    · unfold unsignedNumber
      split
      · rename_i same
        cases same
      · rename_i same
        cases same
        exact absurd rfl other
      · rename_i same
        cases same
        rw [if_pos digit, read]

end Numbers

section Records

variable {α σ : Type} {decoder : Decoder α} {depth : Nat} {v : Json} {a : α}

/-- The decoder reads the value from the front of every text that begins with that JSON value,
within limits that are wide enough for it. -/
def Reads (decoder : Decoder α) (depth : Nat) (v : Json) (a : α) : Prop :=
  ∀ limits rest, v.renderChars.length < limits.steps → depth ≤ limits.depth → Ends rest →
    decoder limits (v.renderChars ++ rest) = .ok (a, rest)

theorem Reads.deeper {more : Nat} (reads : Reads decoder depth v a) (le : depth ≤ more) :
    Reads decoder more v a := by
  intro limits rest enough shallow ends
  exact reads limits rest enough (Nat.le_trans le shallow) ends

/-- What can be read at the front of a text can be read as a whole text. -/
theorem Reads.decode (reads : Reads decoder depth v a) (shallow : depth ≤ maximalDepth) :
    decode decoder v.render = .ok a := by
  have whole := reads ⟨v.renderChars.length + 1, maximalDepth⟩ [] (Nat.lt_succ_self _) shallow
    fun _ head => nomatch head
  rw [List.append_nil] at whole
  rw [Json.decode, render, String.toList_ofList, decodeChars, whole]
  rfl

theorem reads_text (s : String) : Reads text 0 (.string s) s := by
  intro limits rest _ _ _
  have body := stringBody_escaped s.toList rest
  simp only [renderChars, quoted, List.cons_append, List.append_assoc, List.nil_append]
  show (stringBody _).map _ = _
  rw [body]
  simp [Except.map]

/-- A text that `parse` understands is read as what it denotes. -/
theorem reads_textOf {parse : String → Option α} {s : String} (denotes : parse s = some a) :
    Reads (textOf parse) 0 (.string s) a := by
  intro limits rest enough shallow ends
  have read := reads_text s limits rest enough shallow ends
  simp only [textOf, read, denotes, bind, Except.bind]

theorem reads_naturalBelow {n bound : Nat} (small : n < bound) (fits : n < significandLimit) :
    Reads (naturalBelow bound) 0 (.ofNat n) n := by
  intro limits rest _ _ ends
  have read := number_numeral ends fits
  obtain ⟨c, cs, begins⟩ := List.exists_cons_of_ne_nil (numeral_ne_nil n)
  have digit : isDigit c = true := isDigit_of_mem_numeral (n := n) (begins ▸ List.mem_cons_self)
  have visible : isSpace c = false := by
    simp only [isDigit, digitValue?] at digit
    split at digit
    · rename_i range
      simp only [isSpace, Bool.or_eq_false_iff, beq_eq_false_iff_ne, ne_eq]
      refine ⟨⟨⟨?_, ?_⟩, ?_⟩, ?_⟩ <;> rintro rfl <;> revert range <;> decide
    · cases digit
  have written : (Json.ofNat n).renderChars = c :: cs := by
    rw [ofNat, renderChars, renderInt, if_neg (by omega), Int.natAbs_natCast, begins]
  rw [begins, List.cons_append] at read
  have within : (0 : Int) ≤ n ∧ (n : Int) ≤ bound - 1 := by omega
  simp only [naturalBelow, integerWithin, written, List.cons_append, skipSpace,
    List.dropWhile_cons_of_neg (Bool.eq_false_iff.mp visible), digit, or_true, if_true, read, bind,
    Except.bind, if_pos within, Int.toNat_natCast]

/-- The draft becomes another one when these members are read, all of them known and none of them
twice. -/
inductive Fills (fields : List (Field σ)) (depth : Nat) : σ → List (String × Json) → σ → Prop
  | nil {draft : σ} : Fills fields depth draft [] draft
  | cons {draft next last : σ} {field : Field σ} {key : String} {value : Json}
      {members : List (String × Json)}
      (known : fields.find? (fun field => field.name == key) = some field)
      (unset : field.isSet draft = false) (reads : Reads (field.read draft) depth value next)
      (later : Fills fields depth next members last) :
      Fills fields depth draft ((key, value) :: members) last

variable {fields : List (Field σ)} {draft next last start : σ} {members : List (String × Json)}
  {finish : σ → Option α} {inner : Limits}

theorem reads_of {β : Type} {name : String} {get : σ → Option β} {set : σ → β → σ}
    {decoder : Decoder β} {mayEnd : Bool} {b : β} (reads : Reads decoder depth v b) (draft : σ) :
    Reads ((Field.of name get set decoder mayEnd).read draft) depth v (set draft b) := by
  intro limits rest enough shallow ends
  have read := reads limits rest enough shallow ends
  simp only [Field.of, read, Except.map]

/-- How a member with that key changes a draft. -/
def memberOf (fields : List (Field σ)) (inner : Limits) (key : String) (draft : σ) :
    Except Fault (List Char → Except Fault (Found σ)) :=
  match fields.find? fun field => field.name == key with
  | none => .ok fun cs => (skip inner cs).map fun (_, rest) => (draft, rest)
  | some field =>
    if field.isSet draft then .error .unsuitable
    else .ok (field.read draft inner)

theorem ends_renderMembers (members : List (String × Json)) (rest : List Char) :
    Ends (renderMembers members ++ rest) := by
  intro c head
  cases members with
  | nil =>
      cases head
      exact .inr (.inl rfl)
  | cons member members =>
      cases head
      exact .inl rfl

theorem length_le_renderMembers (members : List (String × Json)) :
    members.length ≤ (renderMembers members).length := by
  induction members with
  | nil => simp
  | cons member members ih =>
      simp only [renderMembers, List.length_append, List.length_cons]
      omega

theorem membersFrom_member {field : Field σ} {key : String} {value : Json} {steps : Nat}
    {first : Bool} {cs rest : List Char}
    (known : fields.find? (fun field => field.name == key) = some field)
    (unset : field.isSet draft = false) (reads : Reads (field.read draft) depth value next)
    (enough : value.renderChars.length < inner.steps) (shallow : depth ≤ inner.depth)
    (begins : nextItem '\x7d' first cs =
      .ok (.item (quoted key ++ ':' :: (value.renderChars ++ (renderMembers members ++ rest))))) :
    membersFrom stringToken (memberOf fields inner) (steps + 1) first draft cs =
      membersFrom stringToken (memberOf fields inner) steps false next
        (renderMembers members ++ rest) := by
  have read := reads inner (renderMembers members ++ rest) enough shallow
    (ends_renderMembers members rest)
  have mark (cs : List Char) : colon (':' :: cs) = .ok ((), cs) := by
    simp [colon, skipSpace, isSpace, word, after?, startsWith]
  simp only [membersFrom, begins, bind, Except.bind, stringToken_quoted, memberOf,
    known, unset, mark, read, Bool.false_eq_true, if_false]

theorem Fills.membersFrom (fills : Fills fields depth draft members last) {steps : Nat}
    (more : members.length < steps) (enough : (renderMembers members).length < inner.steps)
    (shallow : depth ≤ inner.depth) (rest : List Char) :
    membersFrom stringToken (memberOf fields inner) steps false draft
      (renderMembers members ++ rest) = .ok (last, rest) := by
  induction fills generalizing steps with
  | nil =>
      obtain ⟨steps, rfl⟩ := Nat.exists_eq_succ_of_ne_zero (Nat.ne_of_gt more)
      rfl
  | @cons draft next last field key value members known unset reads later ih =>
      obtain ⟨steps, rfl⟩ := Nat.exists_eq_succ_of_ne_zero (Nat.ne_of_gt (Nat.zero_lt_of_lt more))
      simp only [renderMembers, List.length_append, List.length_cons] at enough more
      have begins : nextItem '\x7d' false (renderMembers ((key, value) :: members) ++ rest) =
          .ok (.item (quoted key ++ ':' ::
            (value.renderChars ++ (renderMembers members ++ rest)))) := by
        simp [renderMembers, quoted, nextItem, skipSpace, isSpace]
      rw [membersFrom_member known unset reads (by omega) shallow begins]
      exact ih (by omega) (by omega)

theorem Fills.reads (fills : Fills fields depth start members last)
    (finished : finish last = some a) :
    Reads (record fields start finish) (depth + 1) (.object members) a := by
  intro limits rest enough shallow _
  obtain ⟨steps, limit⟩ := limits
  obtain ⟨limit, rfl⟩ := Nat.exists_eq_succ_of_ne_zero (Nat.ne_of_gt (Nat.zero_lt_of_lt shallow))
  replace shallow : depth ≤ limit := Nat.le_of_succ_le_succ shallow
  have entered {r : List Char}
      (read : Json.membersFrom stringToken (memberOf fields ⟨steps, limit⟩) steps true start r =
        .ok (last, rest)) :
      record fields start finish ⟨steps, limit + 1⟩ ('\x7b' :: r) = .ok (a, rest) := by
    change (Json.membersFrom stringToken (memberOf fields ⟨steps, limit⟩) steps true
      start r >>= _) = _
    rw [read]
    simp [bind, Except.bind, finished]
  have members : ∃ r, (Json.object members).renderChars ++ rest = '\x7b' :: r ∧
      Json.membersFrom stringToken (memberOf fields ⟨steps, limit⟩) steps true start r =
        .ok (last, rest) := by
    cases fills with
    | nil =>
        obtain ⟨steps, rfl⟩ :=
          Nat.exists_eq_succ_of_ne_zero (Nat.ne_of_gt (Nat.zero_lt_of_lt enough))
        exact ⟨'\x7d' :: rest, rfl, rfl⟩
    | @cons _ next _ field key value members known unset reads later =>
        obtain ⟨steps, rfl⟩ :=
          Nat.exists_eq_succ_of_ne_zero (Nat.ne_of_gt (Nat.zero_lt_of_lt enough))
        have longer := length_le_renderMembers members
        simp only [renderChars, List.length_append, List.length_cons] at enough
        refine ⟨quoted key ++ ':' :: (value.renderChars ++ (renderMembers members ++ rest)), ?_, ?_⟩
        · simp [renderChars]
        · have begins : nextItem '\x7d' true
              (quoted key ++ ':' :: (value.renderChars ++ (renderMembers members ++ rest))) =
              .ok (.item (quoted key ++ ':' ::
                (value.renderChars ++ (renderMembers members ++ rest)))) := by
            simp [quoted, nextItem, skipSpace, isSpace]
          let inner : Limits := ⟨steps + 1, limit⟩
          have first : value.renderChars.length < inner.steps := by
            show _ < steps + 1
            omega
          have others : (renderMembers members).length < inner.steps := by
            show _ < steps + 1
            omega
          rw [membersFrom_member known unset reads first shallow begins]
          exact later.membersFrom (by omega) others shallow rest
  obtain ⟨r, text, read⟩ := members
  rw [text, entered read]

end Records

end Courier.Json
