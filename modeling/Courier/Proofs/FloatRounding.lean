import Mathlib
import Courier.RateLimit.Amount

/-!
Rounding to floating-point numbers of 64 bits. A positive number is a mantissa and an exponent; in
units of the smallest positive number it is a whole number. Rounding cuts off the bits below an
exponent and rounds to the nearest, so it does not pass a bound that is a multiple of that power of
two.
-/
namespace Courier.Floating

open Float.Model (Format totalExponent UnpackedFloat)
open Float.Model.UnpackedFloat

variable {m m₁ m₂ n k shift : Nat} {e e₁ e₂ : Int} {s : Sign} {accuracy : Accuracy}

/-- A mantissa and an exponent as numbers of 64 bits have them: at most 53 bits, and fewer only at
the smallest exponent. -/
structure Canonical (m : Nat) (e : Int) : Prop where
  bits : m < 2 ^ 53
  smallest : -1074 ≤ e
  filled : e = -1074 ∨ 2 ^ 52 ≤ m

/-- In units of the smallest positive number. -/
def units (m : Nat) (e : Int) : Nat := m * 2 ^ (e + 1074).toNat

@[simp] theorem units_zero (e : Int) : units 0 e = 0 := Nat.zero_mul _

theorem units_two_pow (k : Nat) (e : Int) : units (2 ^ k) e = 2 ^ (k + (e + 1074).toNat) :=
  (Nat.pow_add _ _ _).symm

theorem units_pos (positive : 0 < m) : 0 < units m e := Nat.mul_pos positive (Nat.two_pow_pos _)

theorem units_le_units (le : m₁ ≤ m₂) (e : Int) : units m₁ e ≤ units m₂ e :=
  Nat.mul_le_mul_right _ le

theorem le_of_units_le (le : units m₁ e ≤ units m₂ e) : m₁ ≤ m₂ :=
  Nat.le_of_mul_le_mul_right le (Nat.two_pow_pos _)

theorem units_lower (m : Nat) (smallest : -1074 ≤ e₁) (order : e₁ ≤ e₂) :
    units (m * 2 ^ (e₂ - e₁).toNat) e₁ = units m e₂ := by
  have split : (e₂ + 1074).toNat = (e₂ - e₁).toNat + (e₁ + 1074).toNat := by omega
  unfold units
  rw [split, Nat.pow_add, Nat.mul_assoc]

/-- At a larger exponent bits are cut off, and the number is no larger. -/
theorem units_raise_le (m : Nat) (smallest : -1074 ≤ e₁) (order : e₁ ≤ e₂) :
    units (m / 2 ^ (e₂ - e₁).toNat) e₂ ≤ units m e₁ := by
  rw [← units_lower _ smallest order]
  exact units_le_units (Nat.div_mul_le_self _ _) e₁

theorem units_lt_units (first : Canonical m₁ e₁) (second : Canonical m₂ e₂) (smaller : e₁ < e₂) :
    units m₁ e₁ < units m₂ e₂ := by
  have filled := second.filled.resolve_left (by have := first.smallest; omega)
  have split : (e₂ + 1074).toNat = (e₁ + 1074).toNat + 1 + (e₂ - e₁ - 1).toNat := by
    have := first.smallest
    omega
  have positive : 0 < 2 ^ (e₁ + 1074).toNat := Nat.two_pow_pos _
  calc units m₁ e₁ < 2 ^ 53 * 2 ^ (e₁ + 1074).toNat :=
        Nat.mul_lt_mul_of_pos_right first.bits positive
    _ = 2 ^ 52 * 2 ^ ((e₁ + 1074).toNat + 1) := by rw [Nat.pow_succ _ (e₁ + 1074).toNat]; ring
    _ ≤ m₂ * 2 ^ (e₂ + 1074).toNat := by
      refine Nat.mul_le_mul filled (Nat.pow_le_pow_right (by decide) ?_)
      omega

theorem isLE_compare_iff (first : Canonical m₁ e₁) (second : Canonical m₂ e₂) :
    ((compare e₁ e₂).then (compare m₁ m₂)).isLE = true ↔ units m₁ e₁ ≤ units m₂ e₂ := by
  rcases Int.lt_trichotomy e₁ e₂ with less | rfl | greater
  · have below := units_lt_units first second less
    rw [Int.compare_eq_lt.mpr less]
    simp [Ordering.then, below.le]
  · have positive : 0 < 2 ^ (e₁ + 1074).toNat := Nat.two_pow_pos _
    rw [Int.compare_eq_eq.mpr rfl]
    simp [Ordering.then, Nat.isLE_compare, units]
  · have above := units_lt_units second first greater
    rw [Int.compare_eq_gt.mpr greater]
    simp [Ordering.then, above]

theorem targetExponent_eq (m : Nat) (e : Int) :
    Format.binary64.targetExponent (totalExponent m e) = max (m.log2 + e - 52) (-1074) := by
  simp only [Format.targetExponent, totalExponent, Format.mantissaBits, Format.minExponent]
  omega

theorem mantissa_shift (em : ExtendedMantissa) (shift : Nat) :
    (em >>> shift).mantissa = em.mantissa / 2 ^ shift := by
  induction shift with
  | zero => exact (Nat.div_one _).symm
  | succ shift ih =>
      have last : em >>> (shift + 1) = (em >>> shift).shiftRightOne := rfl
      rw [last, ExtendedMantissa.shiftRightOne, ih, Nat.div_div_eq_div_mul, Nat.pow_succ]

theorem shift_exact (m shift : Nat) :
    ExtendedMantissa.ofMantissaAndAccuracy (m * 2 ^ shift) .exact >>> shift =
      ExtendedMantissa.ofMantissaAndAccuracy m .exact := by
  induction shift generalizing m with
  | zero => rw [Nat.pow_zero, Nat.mul_one]; rfl
  | succ shift ih =>
      have last (em : ExtendedMantissa) : em >>> (shift + 1) = (em >>> shift).shiftRightOne := rfl
      have split : m * 2 ^ (shift + 1) = (m * 2) * 2 ^ shift := by ring
      rw [last, split, ih]
      simp [ExtendedMantissa.shiftRightOne, ExtendedMantissa.ofMantissaAndAccuracy]

theorem mantissa_le_rounded (em : ExtendedMantissa) : em.mantissa ≤ em.roundedMantissa := by
  obtain ⟨m, r, t⟩ := em
  cases r <;> cases t <;>
    simp [ExtendedMantissa.roundedMantissa, ExtendedMantissa.accuracy, Accuracy.roundToNearestEven]

theorem rounded_le_succ (em : ExtendedMantissa) : em.roundedMantissa ≤ em.mantissa + 1 := by
  obtain ⟨m, r, t⟩ := em
  cases r <;> cases t <;>
    simp [ExtendedMantissa.roundedMantissa, ExtendedMantissa.accuracy, Accuracy.roundToNearestEven]
  omega

/-- What there may be beyond the mantissa, rounded up. -/
def excess : Accuracy → Nat
  | .exact => 0
  | .inexact _ => 1

theorem excess_le_one (accuracy : Accuracy) : excess accuracy ≤ 1 := by
  cases accuracy with
  | exact => exact Nat.zero_le 1
  | inexact _ => exact Nat.le_refl 1

@[simp] theorem mantissa_ofMantissaAndAccuracy (m : Nat) (accuracy : Accuracy) :
    (ExtendedMantissa.ofMantissaAndAccuracy m accuracy).mantissa = m := by
  unfold ExtendedMantissa.ofMantissaAndAccuracy
  split <;> rfl

/-- Rounding does not pass a whole number. -/
theorem rounded_le (bound : m + excess accuracy ≤ n * 2 ^ shift) :
    (ExtendedMantissa.ofMantissaAndAccuracy m accuracy >>> shift).roundedMantissa ≤ n := by
  have up := rounded_le_succ (ExtendedMantissa.ofMantissaAndAccuracy m accuracy >>> shift)
  rw [mantissa_shift, mantissa_ofMantissaAndAccuracy] at up
  rcases Nat.lt_or_ge (m / 2 ^ shift) n with below | above
  · omega
  · have reached := (Nat.le_div_iff_mul_le (Nat.two_pow_pos shift)).mp above
    have nothing : excess accuracy = 0 := by omega
    cases accuracy with
    | inexact _ => cases nothing
    | exact =>
        have whole : m = n * 2 ^ shift := by omega
        rw [whole, shift_exact]
        exact Nat.le_refl n

/-- The exponent at which a number is cut off when it is rounded. -/
def cut (m : Nat) (e : Int) : Int := max e (Format.binary64.targetExponent (totalExponent m e))

/-- The mantissa at that exponent, rounded; it may have one bit too many. -/
def rounded (m : Nat) (e : Int) (accuracy : Accuracy) : Nat :=
  (ExtendedMantissa.ofMantissaAndAccuracy m accuracy >>> (cut m e - e).toNat).roundedMantissa

theorem shiftToTargetExponent_eq (m : Nat) (e : Int) (accuracy : Accuracy) :
    shiftToTargetExponent Format.binary64 m e accuracy =
      (ExtendedMantissa.ofMantissaAndAccuracy m accuracy >>> (cut m e - e).toNat, cut m e) := by
  have amount : (cut m e - e).toNat =
      (Format.binary64.targetExponent (totalExponent m e) - e).toNat := by
    unfold cut
    omega
  have reached :
      e + ((Format.binary64.targetExponent (totalExponent m e) - e).toNat : Int) = cut m e := by
    unfold cut
    omega
  rw [shiftToTargetExponent, shiftToExponent, amount, reached]

theorem roundWithAccuracy_cases (s : Sign) (m : Nat) (e : Int) (accuracy : Accuracy) :
    let e₁ := cut m e
    let m₁ := rounded m e accuracy
    let e₂ := cut m₁ e₁
    (m₁ / 2 ^ (e₂ - e₁).toNat = 0 ∧ roundWithAccuracy Format.binary64 s m e accuracy = .zero s) ∨
      ∃ positive, roundWithAccuracy Format.binary64 s m e accuracy =
        .finite s (m₁ / 2 ^ (e₂ - e₁).toNat) e₂ positive := by
  intro e₁ m₁ e₂
  let final := ExtendedMantissa.ofMantissaAndAccuracy m₁ .exact >>> (e₂ - e₁).toNat
  have last : final.mantissa = m₁ / 2 ^ (e₂ - e₁).toNat := by
    rw [mantissa_shift, mantissa_ofMantissaAndAccuracy]
  have result : roundWithAccuracy Format.binary64 s m e accuracy =
      if h : final.mantissa = 0 then .zero s
      else .finite s final.mantissa e₂ (Nat.pos_of_ne_zero h) := by
    unfold roundWithAccuracy
    simp only [shiftToTargetExponent_eq]
    rfl
  by_cases zero : final.mantissa = 0
  · exact .inl ⟨last ▸ zero, result.trans (dif_pos zero)⟩
  · refine .inr ⟨last ▸ Nat.pos_of_ne_zero zero, ?_⟩
    rw [result, dif_neg zero]
    simp only [last]

theorem le_cut (m : Nat) (e : Int) : e ≤ cut m e := Int.le_max_left _ _

theorem smallest_le_cut (m : Nat) (e : Int) : -1074 ≤ cut m e := by
  unfold cut
  rw [targetExponent_eq]
  omega

theorem filled_of_log2 (nonzero : m ≠ 0) (bits : 52 + shift = m.log2) : 2 ^ 52 ≤ m / 2 ^ shift := by
  rw [Nat.le_div_iff_mul_le (Nat.two_pow_pos _), ← Nat.pow_add, bits]
  exact Nat.log2_self_le nonzero

theorem canonical_of_round (accuracy : Accuracy) (some : m ≠ 0)
    (small : e ≤ Format.binary64.targetExponent (totalExponent m e)) :
    let e₁ := cut m e
    let m₁ := rounded m e accuracy
    let e₂ := cut m₁ e₁
    Canonical (m₁ / 2 ^ (e₂ - e₁).toNat) e₂ := by
  intro e₁ m₁ e₂
  have first : e₁ = max (m.log2 + e - 52) (-1074) := by
    have same : e₁ = max e _ := rfl
    rw [targetExponent_eq] at same small
    omega
  have second : e₂ = max e₁ (max (m₁.log2 + e₁ - 52) (-1074)) := by
    have same : e₂ = max e₁ _ := rfl
    rw [targetExponent_eq] at same
    exact same
  rw [targetExponent_eq] at small
  refine ⟨?_, by omega, ?_⟩
  · rw [Nat.div_lt_iff_lt_mul (Nat.two_pow_pos _), ← Nat.pow_add]
    refine Nat.lt_of_lt_of_le Nat.lt_log2_self (Nat.pow_le_pow_right (by decide) ?_)
    omega
  -- the mantissa is filled by the second cut, or else by the first, or the exponent is the smallest
  · rcases Int.lt_or_le e₁ e₂ with again | once
    · have nonzero : m₁ ≠ 0 := by
        intro zero
        have none : m₁.log2 = 0 := by rw [zero]; rfl
        omega
      exact .inr (filled_of_log2 nonzero (by omega))
    · obtain same : e₂ = e₁ := by omega
      rcases Int.lt_or_le (-1074) e₁ with above | smallest
      · right
        rw [same, Int.sub_self, Int.toNat_zero, Nat.pow_zero, Nat.div_one]
        refine Nat.le_trans ?_ (mantissa_le_rounded _)
        rw [mantissa_shift, mantissa_ofMantissaAndAccuracy]
        have bits : 52 + (e₁ - e).toNat = m.log2 := by omega
        exact filled_of_log2 some bits
      · exact .inl (by omega)

/-- What is rounded does not pass a bound that is a multiple of the exponent at which it is cut
off. -/
theorem units_rounded_le (low : -1074 ≤ e) {e' : Int} (cutBelow : cut m e ≤ e')
    (bound : units (m + excess accuracy) e ≤ units n e') :
    units (rounded m e accuracy) (cut m e) ≤ units n e' := by
  rw [← units_lower n (smallest_le_cut m e) cutBelow] at bound ⊢
  rw [← units_lower _ low (le_cut m e)] at bound
  exact units_le_units (rounded_le (le_of_units_le bound)) _

theorem log2_mul_two_pow (positive : 0 < m) (shift : Nat) :
    (m * 2 ^ shift).log2 = m.log2 + shift := by
  refine (Nat.log2_eq_iff (by positivity)).mpr ⟨?_, ?_⟩
  · rw [Nat.pow_add]
    exact Nat.mul_le_mul_right _ (Nat.log2_self_le positive.ne')
  · have grown : m.log2 + shift + 1 = m.log2 + 1 + shift := by omega
    rw [grown, Nat.pow_add]
    exact Nat.mul_lt_mul_of_pos_right Nat.lt_log2_self (Nat.two_pow_pos _)

theorem targetExponent_mul_two_pow (positive : 0 < m) (e : Int) (shift : Nat) :
    Format.binary64.targetExponent (totalExponent (m * 2 ^ shift) (e - shift)) =
      Format.binary64.targetExponent (totalExponent m e) := by
  rw [targetExponent_eq, targetExponent_eq, log2_mul_two_pow positive]
  omega

theorem targetExponent_of_canonical (canonical : Canonical m e) (positive : 0 < m) :
    Format.binary64.targetExponent (totalExponent m e) = e := by
  obtain ⟨bits, smallest, filled⟩ := canonical
  rw [targetExponent_eq]
  rcases Nat.lt_or_ge m (2 ^ 52) with subnormal | normal
  · have few : m.log2 < 52 := (Nat.log2_lt (by omega)).mpr subnormal
    omega
  · have full : m.log2 = 52 := (Nat.log2_eq_iff (by omega)).mpr ⟨normal, bits⟩
    omega

/-- Nothing is lost in rounding a canonical number, also if it comes with more bits that are
zero. -/
theorem round_scaled (s : Sign) (canonical : Canonical m e) (positive : 0 < m) (shift : Nat) :
    roundWithAccuracy Format.binary64 s (m * 2 ^ shift) (e - shift) .exact =
      .finite s m e positive := by
  have target := targetExponent_of_canonical canonical positive
  have first : cut (m * 2 ^ shift) (e - shift) = e := by
    unfold cut
    rw [targetExponent_mul_two_pow positive, target]
    omega
  have second : cut m e = e := by
    unfold cut
    rw [target, Int.max_self]
  have exactly : rounded (m * 2 ^ shift) (e - shift) .exact = m := by
    have amount : (e - (e - shift)).toNat = shift := by omega
    unfold rounded
    rw [first, amount, shift_exact]
    rfl
  have cases := roundWithAccuracy_cases s (m * 2 ^ shift) (e - shift) .exact
  simp only [first, exactly, second, Int.sub_self, Int.toNat_zero, Nat.pow_zero,
    Nat.div_one] at cases
  rcases cases with ⟨zero, _⟩ | ⟨_, result⟩
  · omega
  · exact result

theorem exponent_le_zero (canonical : Canonical m e) (small : n < 2 ^ 53)
    (bound : units m e ≤ units n 0) : e ≤ 0 := by
  have largest : Canonical (2 ^ 53 - 1) 0 := ⟨by decide, by decide, .inr (by decide)⟩
  have below : units n 0 ≤ units (2 ^ 53 - 1) 0 := units_le_units (by omega) 0
  by_contra above
  have beyond := units_lt_units largest canonical (by omega)
  omega

theorem log2_le_of_units {e' : Int} (nonzero : m ≠ 0) (low : -1074 ≤ e) (low' : -1074 ≤ e')
    (small : n < 2 ^ k) (bound : units m e ≤ units n e') : m.log2 + e < k + e' := by
  have first : 2 ^ m.log2 * 2 ^ (e + 1074).toNat ≤ units m e :=
    Nat.mul_le_mul_right _ (Nat.log2_self_le nonzero)
  have last : units n e' < 2 ^ k * 2 ^ (e' + 1074).toNat :=
    Nat.mul_lt_mul_of_pos_right small (Nat.two_pow_pos _)
  have powers := Nat.lt_of_le_of_lt (Nat.le_trans first bound) last
  rw [← Nat.pow_add, ← Nat.pow_add, Nat.pow_lt_pow_iff_right (by decide)] at powers
  omega

/-- A number is rounded from the exponent at which it is cut off, or from a smaller one. -/
theorem round_eq (s : Sign) (m : Nat) (e : Int) :
    let shift := (e - Format.binary64.targetExponent (totalExponent m e)).toNat
    UnpackedFloat.round Format.binary64 s m e =
      roundWithAccuracy Format.binary64 s (m * 2 ^ shift) (e - shift) .exact := by
  intro shift
  show roundWithAccuracy Format.binary64 s (m <<< shift) (e - shift) .exact = _
  rw [Nat.shiftLeft_eq]

end Courier.Floating
