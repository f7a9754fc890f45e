import Courier.Uuid
import Mathlib.Algebra.Group.Nat.Defs

namespace Courier.Text

variable {c : Char} {cs : List Char} {n d : Nat}

theorem hexValue?_hexDigit (small : d < 16) : hexValue? (hexDigit d) = some d := by
  have all : ∀ d < 16, hexValue? (hexDigit d) = some d := by decide
  exact all d small

theorem digitValue?_ofNat (small : d < 10) : digitValue? (Char.ofNat (48 + d)) = some d := by
  have all : ∀ d < 10, digitValue? (Char.ofNat (48 + d)) = some d := by decide
  exact all d small

theorem digitValue?_digitChar (small : d < 10) : digitValue? d.digitChar = some d := by
  have all : ∀ d < 10, digitValue? d.digitChar = some d := by decide
  exact all d small

theorem hexNumber?_snoc (cs : List Char) (c : Char) : hexNumber? (cs ++ [c]) =
    (hexNumber? cs).bind fun n => (hexValue? c).map fun d => 16 * n + d := by
  simp [hexNumber?, List.foldlM_append]

theorem decimalNumber?_snoc (cs : List Char) (c : Char) : decimalNumber? (cs ++ [c]) =
    (decimalNumber? cs).bind fun n => (digitValue? c).map fun d => 10 * n + d := by
  simp [decimalNumber?, List.foldlM_append]

theorem hexNumber?_hexDigits {width : Nat} (room : n < 16 ^ width) :
    hexNumber? (hexDigits width n) = some n := by
  induction width generalizing n with
  | zero =>
      obtain rfl : n = 0 := by simpa using room
      rfl
  | succ width ih =>
      have fewer : n / 16 < 16 ^ width := by
        rw [Nat.pow_succ] at room
        omega
      have last : n % 16 < 16 := Nat.mod_lt n (by decide)
      simp only [hexDigits, hexNumber?_snoc, ih fewer, hexValue?_hexDigit last, Option.bind_some,
        Option.map_some]
      congr
      omega

theorem decimalNumber?_decimalDigits {width : Nat} (room : n < 10 ^ width) :
    decimalNumber? (decimalDigits width n) = some n := by
  induction width generalizing n with
  | zero =>
      obtain rfl : n = 0 := by simpa using room
      rfl
  | succ width ih =>
      have fewer : n / 10 < 10 ^ width := by
        rw [Nat.pow_succ] at room
        omega
      have last : n % 10 < 10 := Nat.mod_lt n (by decide)
      simp only [decimalDigits, decimalNumber?_snoc, ih fewer, digitValue?_ofNat last,
        Option.bind_some, Option.map_some]
      congr
      omega

@[simp] theorem length_hexDigits (width n : Nat) : (hexDigits width n).length = width := by
  induction width generalizing n with
  | zero => rfl
  | succ width ih => simp [hexDigits, ih]

@[simp] theorem length_decimalDigits (width n : Nat) : (decimalDigits width n).length = width := by
  induction width generalizing n with
  | zero => rfl
  | succ width ih => simp [decimalDigits, ih]

theorem hexDigits_append (first last n : Nat) :
    hexDigits first (n / 16 ^ last) ++ hexDigits last n = hexDigits (first + last) n := by
  induction last generalizing n with
  | zero => simp [hexDigits]
  | succ last ih =>
      have shorter : n / 16 ^ (last + 1) = n / 16 / 16 ^ last := by
        rw [Nat.div_div_eq_div_mul, Nat.pow_succ, Nat.mul_comm]
      rw [shorter, hexDigits, ← List.append_assoc, ih, ← Nat.add_assoc, hexDigits]

theorem hexValue?_of_mem {width : Nat} (mem : c ∈ hexDigits width n) : (hexValue? c).isSome := by
  induction width generalizing n with
  | zero => cases mem
  | succ width ih =>
      rcases List.mem_append.mp mem with first | last
      · exact ih first
      · obtain rfl := List.mem_singleton.mp last
        rw [hexValue?_hexDigit (Nat.mod_lt n (by decide))]
        rfl

theorem isDigit_of_mem_decimalDigits {width : Nat} (mem : c ∈ decimalDigits width n) :
    isDigit c = true := by
  induction width generalizing n with
  | zero => cases mem
  | succ width ih =>
      rcases List.mem_append.mp mem with first | last
      · exact ih first
      · obtain rfl := List.mem_singleton.mp last
        rw [isDigit, digitValue?_ofNat (Nat.mod_lt n (by decide))]
        rfl

theorem isDigit_of_mem_numeral (mem : c ∈ numeral n) : isDigit c = true := by
  have digit := Nat.isDigit_of_mem_toDigits (by decide) (by decide) mem
  simp only [Char.isDigit, Bool.and_eq_true, decide_eq_true_eq, ge_iff_le] at digit
  obtain ⟨low, high⟩ := digit
  have low : 48 ≤ c.toNat := low
  have high : c.toNat ≤ 57 := high
  simp [isDigit, digitValue?, low, high]

theorem numeral_ne_nil (n : Nat) : numeral n ≠ [] := Nat.toDigits_ne_nil

theorem decimalNumber?_numeral (n : Nat) : decimalNumber? (numeral n) = some n := by
  induction n using Nat.strongRecOn with
  | ind n ih =>
      by_cases small : n < 10
      · rw [numeral, Nat.toDigits_of_lt_base small, ← List.nil_append [_], decimalNumber?_snoc,
          digitValue?_digitChar small]
        simp [decimalNumber?]
      · have before := ih (n / 10) (by omega)
        rw [numeral] at before ⊢
        rw [Nat.toDigits_of_base_le (by decide) (by omega), decimalNumber?_snoc, before,
          digitValue?_digitChar (Nat.mod_lt n (by decide))]
        simp only [Option.bind_some, Option.map_some, Option.some.injEq]
        omega

theorem numeral_of_pos (positive : 0 < n) : ∃ c cs, numeral n = c :: cs ∧ c ≠ '0' := by
  induction n using Nat.strongRecOn with
  | ind n ih =>
      by_cases small : n < 10
      · have all : ∀ d < 10, 0 < d → d.digitChar ≠ '0' := by decide
        exact ⟨_, [], Nat.toDigits_of_lt_base small, all n small positive⟩
      · obtain ⟨c, cs, before, other⟩ := ih (n / 10) (by omega) (by omega)
        refine ⟨c, cs ++ [(n % 10).digitChar], ?_, other⟩
        rw [numeral] at before ⊢
        rw [Nat.toDigits_of_base_le (by decide) (by omega), before, List.cons_append]

end Courier.Text

namespace Courier.Uuid

open Text

theorem toNat_lt (u : Uuid) : u.toNat < 2 ^ 128 := u.bits.isLt

theorem hexDigits_groups (n : Nat) :
    hexDigits 8 (n >>> 96) ++ hexDigits 4 (n >>> 80) ++ hexDigits 4 (n >>> 64)
      ++ hexDigits 4 (n >>> 48) ++ hexDigits 12 n = hexDigits 32 n := by
  have cut (k digits : Nat) (same : (2 : Nat) ^ k = 16 ^ digits) (width : Nat) (m : Nat) :
      hexDigits width (m >>> k) ++ hexDigits digits m = hexDigits (width + digits) m := by
    rw [Nat.shiftRight_eq_div_pow, same, hexDigits_append]
  have deeper (k more : Nat) : n >>> (k + more) = n >>> k >>> more := Nat.shiftRight_add n k more
  rw [deeper 80 16, cut 16 4 (by decide), deeper 64 16, cut 16 4 (by decide), deeper 48 16,
    cut 16 4 (by decide), cut 48 12 (by decide)]

theorem length_renderChars (u : Uuid) : u.renderChars.length = 36 := by
  simp [renderChars]

theorem groups?_renderChars (u : Uuid) : groups? u.renderChars = some (hexDigits 32 u.toNat) := by
  have cut (a b c d e : List Char) (ha : a.length = 8) (hb : b.length = 4) (hc : c.length = 4)
      (hd : d.length = 4) (he : e.length = 12) :
      groups? (a ++ ['-'] ++ b ++ ['-'] ++ c ++ ['-'] ++ d ++ ['-'] ++ e) =
        some (a ++ b ++ c ++ d ++ e) := by
    simp [groups?, List.drop_append, ha, hb, hc, hd, he, List.drop_of_length_le]
  rw [renderChars, cut _ _ _ _ _ (length_hexDigits _ _) (length_hexDigits _ _)
    (length_hexDigits _ _) (length_hexDigits _ _) (length_hexDigits _ _), hexDigits_groups]

theorem unwrapped_of_digit {c : Char} {cs : List Char} (digit : (hexValue? c).isSome) :
    unwrapped (c :: cs) = c :: cs := by
  unfold unwrapped
  split
  · rename_i same
    cases same
    cases digit
  · rename_i same
    cases same
    cases digit
  · rfl

theorem parse_render (u : Uuid) : parse u.render = some u := by
  obtain ⟨c, cs, begins⟩ : ∃ c cs, hexDigits 8 (u.toNat >>> 96) = c :: cs := by
    apply List.exists_cons_of_length_pos
    simp
  have first : c ∈ hexDigits 8 (u.toNat >>> 96) := begins ▸ List.mem_cons_self
  have digit : (hexValue? c).isSome := hexValue?_of_mem first
  have bare : unwrapped u.renderChars = u.renderChars := by
    simp only [renderChars, begins, List.cons_append]
    exact unwrapped_of_digit digit
  have enough : u.toNat < 16 ^ 32 := u.toNat_lt
  rw [parse, render, String.toList_ofList, parseChars, length_renderChars, if_neg (by decide), bare,
    groups?_renderChars, Option.bind_some, hexNumber?_hexDigits enough,
    Option.map_some, toNat_ofNat]

theorem render_injective {u v : Uuid} (same : u.render = v.render) : u = v := by
  have read := congrArg parse same
  rw [parse_render, parse_render] at read
  exact Option.some.inj read

end Courier.Uuid
