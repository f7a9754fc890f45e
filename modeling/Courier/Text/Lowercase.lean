import Courier.Text.LetterCase

/-!
Lower case by the Unicode simple case mapping, with its two context-dependent rules: U+0130 becomes
an i and a combining dot, and a capital sigma that ends a word becomes a final sigma. What stands in
front of a text matters only to a sigma, and only up to the last character that ends a word
(`lowerFrom_after`).
-/
namespace Courier.Text

def lowerChar (c : Char) : Char :=
  match capitalRanges.find? (·.contains c.toNat) with
  | some r => Char.ofNat (c.toNat + r.shift).toNat
  | none => c

def casedAhead (cs : List Char) : Bool :=
  match cs.dropWhile isCaseIgnorable with
  | [] => false
  | c :: _ => isCased c

/-- Lower case of the rest of a text, given the characters before it in reverse. -/
def lowerFrom : (before rest : List Char) → List Char
  | _, [] => []
  | before, c :: rest =>
    let new :=
      if c.toNat == 0x130 then ['i', Char.ofNat 0x307]
      else if c.toNat == 0x3A3 then
        [if casedAhead before && !casedAhead rest then Char.ofNat 0x3C2 else Char.ofNat 0x3C3]
      else [lowerChar c]
    new ++ lowerFrom (c :: before) rest

def lower (cs : List Char) : List Char := lowerFrom [] cs

def lowercased (s : String) : String := String.ofList (lower s.toList)

/-- Neither of the context-dependent rules is about the character. -/
def isPlain (c : Char) : Bool := c.toNat != 0x130 && c.toNat != 0x3A3

theorem lowerFrom_append {p : List Char} (plain : p.all isPlain = true) (before r : List Char) :
    lowerFrom before (p ++ r) = p.map lowerChar ++ lowerFrom (p.reverse ++ before) r := by
  induction p generalizing before with
  | nil => rfl
  | cons c p ih =>
      obtain ⟨first, plain⟩ := Bool.and_eq_true_iff.mp plain
      obtain ⟨dotless, sigmaless⟩ := Bool.and_eq_true_iff.mp first
      rw [List.cons_append, lowerFrom, ih plain]
      simp [bne_iff_ne.mp dotless, bne_iff_ne.mp sigmaless]

/-- Not a capital, and one of the first characters, before the accented letters. -/
def isSmall (c : Char) : Bool := c.toNat < 0xC0 && (c.toNat < 0x41 || 0x5A < c.toNat)

theorem isPlain_of_isSmall {c : Char} (small : isSmall c = true) : isPlain c = true := by
  simp only [isSmall, Bool.and_eq_true, Bool.or_eq_true, decide_eq_true_eq] at small
  simp only [isPlain, Bool.and_eq_true, bne_iff_ne]
  omega

theorem lowerChar_of_isSmall {c : Char} (small : isSmall c = true) : lowerChar c = c := by
  have later : ∀ r ∈ capitalRanges.tail, 0xC0 ≤ r.first := by decide +kernel
  simp only [isSmall, Bool.and_eq_true, Bool.or_eq_true, decide_eq_true_eq] at small
  have none : capitalRanges.find? (·.contains c.toNat) = none := by
    rw [List.find?_eq_none]
    intro r mem
    simp only [CapitalRange.contains, Bool.and_eq_true, decide_eq_true_eq]
    rcases List.mem_cons.mp mem with rfl | mem
    · dsimp only
      omega
    · have bound := later r mem
      omega
  rw [lowerChar, none]

theorem lowerFrom_small {p : List Char} (small : p.all isSmall = true) (before r : List Char) :
    lowerFrom before (p ++ r) = p ++ lowerFrom (p.reverse ++ before) r := by
  have small := List.all_eq_true.mp small
  have plain : p.all isPlain = true :=
    List.all_eq_true.mpr fun c mem => isPlain_of_isSmall (small c mem)
  have same : p.map lowerChar = p.map id :=
    List.map_congr_left fun c mem => lowerChar_of_isSmall (small c mem)
  rw [lowerFrom_append plain, same, List.map_id]

theorem lowerFrom_of_small {p : List Char} (small : p.all isSmall = true) (before : List Char) :
    lowerFrom before p = p := by
  simpa [lowerFrom] using lowerFrom_small small before []

theorem casedAhead_append (a : List Char) {c : Char} (ends : isCaseIgnorable c = false)
    (uncased : isCased c = false) (b : List Char) : casedAhead (a ++ c :: b) = casedAhead a := by
  induction a with
  | nil => simp [casedAhead, ends, uncased]
  | cons d a ih =>
      unfold casedAhead at ih ⊢
      cases ignorable : isCaseIgnorable d with
      | true => simpa [ignorable] using ih
      | false => simp [ignorable]

theorem lowerFrom_after {c : Char} (ends : isCaseIgnorable c = false) (uncased : isCased c = false)
    (a before r : List Char) : lowerFrom (a ++ c :: before) r = lowerFrom a r := by
  induction r generalizing a with
  | nil => rfl
  | cons d r ih =>
      rw [lowerFrom, lowerFrom, casedAhead_append a ends uncased, ← List.cons_append, ih]

end Courier.Text
