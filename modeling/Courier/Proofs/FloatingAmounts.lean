import Courier.Proofs.FloatRounding

namespace Courier.Floating

open Float.Model (Format totalExponent UnpackedFloat)
open Float.Model.UnpackedFloat

variable {m n k : Nat} {e : Int} {s : Sign} {accuracy : Accuracy}

/-- A number that 64 bits can hold. -/
def Fits : UnpackedFloat → Prop
  | .finite _ m e _ => Canonical m e ∧ e ≤ 971
  | _ => True

/-- The bit that a normal number does not store. -/
theorem toNat_implicit (mantissa : BitVec 52) :
    (1#1 ++ mantissa).toNat = 2 ^ 52 + mantissa.toNat := by
  rw [BitVec.toNat_append]
  exact (Nat.two_pow_add_eq_or_of_lt mantissa.isLt 1).symm

theorem fits_unpack (x : Float.Model) : Fits x.unpack := by
  let mantissa := @unpackMantissa Format.binary64 x.toBits.toBitVec
  let exponent := @unpackExponent Format.binary64 x.toBits.toBitVec
  have short : mantissa.toNat < 2 ^ 52 := mantissa.isLt
  have field : exponent.toNat < 2 ^ 11 := exponent.isLt
  have bias :
      ((Format.binary64.exponentBias : Int) + Format.binary64.mantissaBitsWithoutImplicit) = 1075 :=
        rfl
  unfold Float.Model.unpack unpack
  simp only [bias]
  split
  · split <;> trivial
  · rename_i finite
    have notLast : exponent.toNat ≠ 2047 := fun last => finite (BitVec.eq_of_toNat_eq last)
    split
    · rename_i zero
      split
      · trivial
      · have small : (exponent.toNat : Int) - 1075 + 1 = -1074 := by
          have first : exponent.toNat = 0 := congrArg BitVec.toNat zero
          omega
        show Canonical mantissa.toNat (exponent.toNat - 1075 + 1) ∧
          (exponent.toNat - 1075 + 1 : Int) ≤ 971
        rw [small]
        exact ⟨⟨by omega, by omega, .inl rfl⟩, by omega⟩
    · rename_i normal
      have notFirst : exponent.toNat ≠ 0 := fun first => normal (BitVec.eq_of_toNat_eq first)
      show Canonical (1#1 ++ mantissa).toNat (exponent.toNat - 1075) ∧
          (exponent.toNat - 1075 : Int) ≤ 971
      rw [toNat_implicit]
      exact ⟨⟨by omega, by omega, .inr (by omega)⟩, by omega⟩

theorem unpackSign_packComponents (s : Sign) (exponent : BitVec 11) (mantissa : BitVec 52) :
    @unpackSign Format.binary64 (packComponents Format.binary64 s exponent mantissa) =
      s.toBitVec := by
  change (s.toBitVec ++ exponent ++ mantissa).extractLsb' 63 1 = s.toBitVec
  rw [BitVec.extractLsb'_append_eq_of_le (by decide),
    BitVec.extractLsb'_append_eq_of_le (by decide)]
  cases s <;> rfl

theorem sign_of_toBitVec (s : Sign) : Sign.ofBitVec s.toBitVec = s := by cases s <;> rfl

theorem unpack_subnormal (s : Sign) {mantissa : BitVec 52} (some : 0 < mantissa.toNat) :
    unpack Format.binary64 (packComponents Format.binary64 s 0#11 mantissa) =
      .finite s mantissa.toNat (-1074) some := by
  have nonzero : mantissa ≠ 0#52 := by
    rintro rfl
    cases some
  simp only [unpack, unpackMantissa_packComponents, unpackExponent_packComponents,
    unpackSign_packComponents, sign_of_toBitVec]
  rw [if_neg (by decide), if_pos trivial, dif_neg nonzero]
  rfl

theorem unpack_normal (s : Sign) {exponent : BitVec 11} (mantissa : BitVec 52)
    (first : exponent.toNat ≠ 0) (last : exponent.toNat ≠ 2047) :
    unpack Format.binary64 (packComponents Format.binary64 s exponent mantissa) =
      .finite s (2 ^ 52 + mantissa.toNat) (exponent.toNat - 1075) (by omega) := by
  simp only [unpack, unpackMantissa_packComponents, unpackExponent_packComponents,
    unpackSign_packComponents, sign_of_toBitVec]
  rw [if_neg (fun same => last (congrArg BitVec.toNat same)),
    if_neg (fun same => first (congrArg BitVec.toNat same))]
  simp only [toNat_implicit]
  rfl

theorem biasedExponent_eq (e : Int) :
    (e + Format.binary64.exponentBias + (52 : Nat)).toNat = (e + 1075).toNat := by
  have bias : Format.binary64.exponentBias = 1023 := rfl
  rw [bias]
  omega

theorem unpack_pack {f : UnpackedFloat} (fits : Fits f) : (Float.Model.pack f).unpack = f := by
  cases f with
  | infinity s => cases s <;> rfl
  | notANumber => rfl
  | zero s => cases s <;> rfl
  | finite s m e positive =>
      obtain ⟨⟨bits, smallest, filled⟩, largest⟩ := fits
      have width : Format.binary64.mantissaBits = 53 := rfl
      change unpack Format.binary64 (pack Format.binary64 (.finite s m e positive)) = _
      unfold pack
      simp only [biasedExponent_eq, width]
      rw [if_neg (show ¬2 ^ 11 ≤ (e + 1075).toNat + 1 by omega)]
      rcases Nat.lt_or_ge m (2 ^ 52) with subnormal | normal
      · have few : m.log2 < 52 := (Nat.log2_lt (by omega)).mpr subnormal
        have kept : (BitVec.ofNat 52 m).toNat = m := Nat.mod_eq_of_lt subnormal
        obtain rfl : e = -1074 := filled.resolve_right (by omega)
        rw [if_neg (by omega)]
        refine (unpack_subnormal s (kept.symm ▸ positive : 0 < (BitVec.ofNat 52 m).toNat)).trans ?_
        simp only [kept]
      · have full : m.log2 = 52 := (Nat.log2_eq_iff (by omega)).mpr ⟨normal, bits⟩
        have kept : 2 ^ 52 + (BitVec.ofNat 52 m).toNat = m := by
          rw [BitVec.toNat_ofNat]
          omega
        have field : (BitVec.ofNat 11 (e + 1075).toNat).toNat = (e + 1075).toNat := by
          rw [BitVec.toNat_ofNat]
          omega
        have same : ((e + 1075).toNat : Int) - 1075 = e := by omega
        rw [if_pos (by omega)]
        refine (unpack_normal s _ (by omega) (by omega)).trans ?_
        simp only [kept, field, same]

theorem canonical_natCast (positive : 0 < n) (small : n < 2 ^ 53) :
    Canonical (n * 2 ^ (52 - n.log2)) (n.log2 - 52) := by
  have log : n.log2 < 53 := (Nat.log2_lt positive.ne').mpr small
  have low : 2 ^ n.log2 * 2 ^ (52 - n.log2) ≤ n * 2 ^ (52 - n.log2) :=
    Nat.mul_le_mul_right _ (Nat.log2_self_le positive.ne')
  have high : n * 2 ^ (52 - n.log2) < 2 ^ (n.log2 + 1) * 2 ^ (52 - n.log2) :=
    Nat.mul_lt_mul_of_pos_right Nat.lt_log2_self (Nat.two_pow_pos _)
  rw [← Nat.pow_add] at low high
  have full : n.log2 + (52 - n.log2) = 52 := by omega
  have top : n.log2 + 1 + (52 - n.log2) = 53 := by omega
  rw [full] at low
  rw [top] at high
  exact ⟨high, by omega, .inr low⟩

theorem normalize_natCast (positive : 0 < n) (small : n < 2 ^ 53) : ∃ m e some,
    UnpackedFloat.normalize Format.binary64 n 0 .positive = .finite .positive m e some ∧
      Canonical m e ∧ e ≤ 0 ∧ units m e = units n 0 := by
  have log : n.log2 < 53 := (Nat.log2_lt positive.ne').mpr small
  have canonical := canonical_natCast positive small
  have some : 0 < n * 2 ^ (52 - n.log2) := Nat.mul_pos positive (Nat.two_pow_pos _)
  refine ⟨_, _, some, ?_, canonical, by omega, ?_⟩
  · have order : compare (n : Int) 0 = .gt := Int.compare_eq_gt.mpr (by omega)
    have target : Format.binary64.targetExponent (totalExponent n 0) = n.log2 - 52 := by
      rw [targetExponent_eq]
      omega
    have amount : (0 - ((n.log2 : Int) - 52)).toNat = 52 - n.log2 := by omega
    have exponent : 0 - ((52 - n.log2 : Nat) : Int) = n.log2 - 52 := by omega
    simp only [UnpackedFloat.normalize, UnpackedFloat.round, order, Int.toNat_natCast, target,
      decreaseExponent, amount, exponent, Nat.shiftLeft_eq]
    have exactly := round_scaled .positive canonical some 0
    rwa [Nat.pow_zero, Nat.mul_one, Nat.cast_zero, Int.sub_zero] at exactly
  · have split : 52 - n.log2 + ((n.log2 : Int) - 52 + 1074).toNat =
        (0 + 1074 : Int).toNat := by omega
    unfold units
    rw [Nat.mul_assoc, ← Nat.pow_add, split]

theorem unpack_ofNat (positive : 0 < n) (small : n < 2 ^ 53) : ∃ m e some,
    (Float.ofNat n).toModel.unpack = .finite .positive m e some ∧ Canonical m e ∧
      units m e = units n 0 := by
  obtain ⟨m, e, some, result, canonical, low, value⟩ := normalize_natCast positive small
  refine ⟨m, e, some, ?_, canonical, value⟩
  have word : n.toUInt64.toNat = n := Nat.mod_eq_of_lt (by omega)
  have converted : n.toUInt64.toFloat.toModel.unpack = .finite .positive m e some := by
    have same : UnpackedFloat.ofNat Format.binary64 n.toUInt64.toNat =
        .finite .positive m e some := by
      rw [word]
      exact result
    show (Float.Model.pack (UnpackedFloat.ofNat Format.binary64 n.toUInt64.toNat)).unpack = _
    rw [same]
    exact unpack_pack ⟨canonical, by omega⟩
  have one : (Float.ofBits 0x3FF0000000000000).toModel.unpack =
      .finite .positive (2 ^ 52) (-52) (by decide) := by rfl
  have product : Float.ofNat n = n.toUInt64.toFloat * Float.ofBits 0x3FF0000000000000 := by
    show Float.ofScientific n false 0 = _
    unfold Float.ofScientific
    rw [dif_pos ⟨small, by decide⟩]
    rfl
  rw [product]
  show (Float.Model.pack (mul Format.binary64 _ _)).unpack = _
  rw [converted, one]
  have exactly : mul Format.binary64 (.finite .positive m e some)
      (.finite .positive (2 ^ 52) (-52) (by decide)) = .finite .positive m e some :=
    round_scaled .positive canonical some 52
  rw [exactly]
  exact unpack_pack ⟨canonical, by omega⟩

theorem unpack_ofNat_zero : (Float.ofNat 0).toModel.unpack = .zero .positive := by rfl

theorem unpack_ofNat_one :
    (Float.ofNat 1).toModel.unpack = .finite .positive (2 ^ 52) (-52) (by decide) := by
  rfl

theorem unpack_ofNat_sixty : (Float.ofNat 60).toModel.unpack =
    .finite .positive (60 * 2 ^ 47) (-47) (by decide) := by
  rfl

def AtMost (n : Nat) : UnpackedFloat → Prop
  | .infinity .negative | .zero _ | .finite .negative .. => True
  | .finite .positive m e _ => units m e ≤ units n 0
  | .notANumber | .infinity .positive => False

theorem le_iff {x y : Float} : x ≤ y ↔ x.toModel.unpack.le y.toModel.unpack = true := by
  show decide (x.toModel ≤ y.toModel) = true ↔ _
  rw [decide_eq_true_iff]
  rfl

theorem le_ofNat_iff {x : Float} (small : n < 2 ^ 53) :
    x ≤ Float.ofNat n ↔ AtMost n x.toModel.unpack := by
  have fits := fits_unpack x.toModel
  rw [le_iff]
  rcases Nat.eq_zero_or_pos n with rfl | positive
  · rw [unpack_ofNat_zero]
    generalize x.toModel.unpack = f at fits ⊢
    match f with
    | .notANumber | .infinity .positive | .infinity .negative | .zero _ | .finite .negative .. =>
        simp [UnpackedFloat.le, UnpackedFloat.compare, AtMost]
    | .finite .positive m e nonzero =>
        simp [UnpackedFloat.le, UnpackedFloat.compare, AtMost, (units_pos nonzero).ne']
  · obtain ⟨m', e', some', same, canonical, value⟩ := unpack_ofNat positive small
    rw [same]
    generalize x.toModel.unpack = f at fits ⊢
    match f with
    | .notANumber | .infinity .positive | .infinity .negative | .zero _ | .finite .negative .. =>
        simp [UnpackedFloat.le, UnpackedFloat.compare, AtMost]
    | .finite .positive m e nonzero =>
        have order := isLE_compare_iff fits.1 canonical
        rw [value] at order
        simpa [UnpackedFloat.le, UnpackedFloat.compare, AtMost] using order

def AtLeastOne : UnpackedFloat → Prop
  | .infinity .positive => True
  | .finite .positive m e _ => units 1 0 ≤ units m e
  | .notANumber | .infinity .negative | .zero _ | .finite .negative .. => False

theorem one_le_iff {x : Float} : Float.ofNat 1 ≤ x ↔ AtLeastOne x.toModel.unpack := by
  have fits := fits_unpack x.toModel
  obtain ⟨m', e', some', same, canonical, value⟩ := unpack_ofNat (n := 1) (by decide) (by decide)
  rw [le_iff, same]
  generalize x.toModel.unpack = f at fits ⊢
  match f with
  | .notANumber | .infinity .positive | .infinity .negative | .zero _ | .finite .negative .. =>
      simp [UnpackedFloat.le, UnpackedFloat.compare, AtLeastOne]
  | .finite .positive m e nonzero =>
      have order := isLE_compare_iff canonical fits.1
      rw [value] at order
      simpa [UnpackedFloat.le, UnpackedFloat.compare, AtLeastOne] using order

theorem atMost_round (nonzero : m ≠ 0) (low : -1074 ≤ e) (small : n < 2 ^ 53)
    (bound : units m e ≤ units n 0) :
    AtMost n (UnpackedFloat.round Format.binary64 .positive m e) ∧
      Fits (UnpackedFloat.round Format.binary64 .positive m e) := by
  let target := Format.binary64.targetExponent (totalExponent m e)
  have target_eq : target = max (m.log2 + e - 52) (-1074) := targetExponent_eq m e
  let shift := (e - target).toNat
  let m' := m * 2 ^ shift
  let e' := e - shift
  have same : Format.binary64.targetExponent (totalExponent m' e') = target :=
    targetExponent_mul_two_pow (Nat.pos_of_ne_zero nonzero) e shift
  have value : units m' e' = units m e := by
    have amount : shift = (e - e').toNat := by omega
    show units (m * 2 ^ shift) e' = units m e
    rw [amount]
    exact units_lower m (by omega) (by omega)
  have cutBelow : cut m' e' ≤ 0 := by
    have log := log2_le_of_units nonzero low (by decide) small bound
    unfold cut
    rw [same]
    omega
  have first : units (rounded m' e' .exact) (cut m' e') ≤ units n 0 :=
    units_rounded_le (by omega) cutBelow (value.trans_le bound)
  rw [round_eq]
  rcases roundWithAccuracy_cases .positive m' e' .exact with ⟨_, result⟩ | ⟨positive, result⟩
  · rw [result]
    exact ⟨trivial, trivial⟩
  · have second := units_raise_le (rounded m' e' .exact) (smallest_le_cut m' e')
      (le_cut (rounded m' e' .exact) (cut m' e'))
    have canonical := canonical_of_round .exact (m := m') (e := e')
      (Nat.mul_ne_zero nonzero (Nat.two_pow_pos _).ne') (by omega)
    have most := Nat.le_trans second first
    have largest := exponent_le_zero canonical small most
    rw [result]
    exact ⟨most, canonical, by omega⟩

/-- A difference of two numbers at one exponent is rounded to no more than a whole number that it
does not pass. -/
theorem atMost_difference {a b : Nat} (order : b ≤ a) (low : -1074 ≤ e) (small : n < 2 ^ 53)
    (bound : units (a - b) e ≤ units n 0) :
    AtMost n (Float.Model.pack
      (UnpackedFloat.normalize Format.binary64 ((a : Int) - b) e .positive)).unpack := by
  rcases Nat.eq_or_lt_of_le order with rfl | less
  · have nothing : UnpackedFloat.normalize Format.binary64 0 e .positive = .zero .positive := rfl
    rw [Int.sub_self, nothing, unpack_pack (f := .zero .positive) trivial]
    exact True.intro
  · have order : compare ((a : Int) - b) 0 = .gt := Int.compare_eq_gt.mpr (by omega)
    have positive : ((a : Int) - b).toNat = a - b := by omega
    obtain ⟨below, fits⟩ := atMost_round (by omega) low small bound
    simp only [UnpackedFloat.normalize, order, positive]
    rwa [unpack_pack fits]

theorem atMost_sub_one {x : Float} (small : n + 1 < 2 ^ 53) (most : AtMost (n + 1) x.toModel.unpack)
    (least : AtLeastOne x.toModel.unpack) : AtMost n (x - Float.ofNat 1).toModel.unpack := by
  have fits := fits_unpack x.toModel
  show AtMost n (Float.Model.pack
    (sub Format.binary64 x.toModel.unpack (Float.ofNat 1).toModel.unpack)).unpack
  rw [unpack_ofNat_one]
  generalize x.toModel.unpack = f at fits most least ⊢
  match f with
  | .notANumber | .infinity .positive => exact most.elim
  | .infinity .negative | .zero _ | .finite .negative .. => exact least.elim
  | .finite .positive m e nonzero =>
      let e' := min e (-52)
      let whole := m * 2 ^ (e - e').toNat
      let one := 2 ^ 52 * 2 ^ (-52 - e').toNat
      have low : -1074 ≤ e' := by have := fits.1.smallest; omega
      have wholeUnits : units whole e' = units m e := units_lower m low (by omega)
      have oneUnits : units one e' = units 1 0 := by
        have same : 52 + (-52 + 1074 : Int).toNat = 0 + (0 + 1074 : Int).toNat := rfl
        rw [units_lower _ low (by omega), units_two_pow, same, ← units_two_pow, Nat.pow_zero]
      have result : sub Format.binary64 (.finite .positive m e nonzero)
          (.finite .positive (2 ^ 52) (-52) (by decide)) =
          UnpackedFloat.normalize Format.binary64 ((whole : Int) - one) e' .positive := by
        simp only [sub, decreaseExponent, Nat.shiftLeft_eq, Sign.apply]
        rfl
      have difference : units (whole - one) e' ≤ units n 0 := by
        have split : units (whole - one) e' = units whole e' - units one e' := Nat.sub_mul _ _ _
        have bound : units (n + 1) 0 = units n 0 + units 1 0 := Nat.add_mul _ _ _
        have most : units m e ≤ units (n + 1) 0 := most
        omega
      have ordered : one ≤ whole := by
        have least : units 1 0 ≤ units m e := least
        rw [← oneUnits, ← wholeUnits] at least
        exact le_of_units_le least
      rw [result]
      exact atMost_difference ordered low (by omega) difference

theorem atMost_add_zero {x y : Float} (zero : y.toModel.unpack = .zero s)
    (most : AtMost n x.toModel.unpack) : AtMost n (x + y).toModel.unpack := by
  have fits := fits_unpack x.toModel
  show AtMost n (Float.Model.pack (add Format.binary64 x.toModel.unpack y.toModel.unpack)).unpack
  rw [zero]
  generalize x.toModel.unpack = f at fits most ⊢
  match f with
  | .notANumber | .infinity .positive => exact most.elim
  | .infinity .negative =>
      rw [show add _ _ _ = .infinity .negative from rfl,
        unpack_pack (f := .infinity .negative) trivial]
      exact most
  | .finite sign m e nonzero =>
      rw [show add _ _ _ = .finite sign m e nonzero from rfl, unpack_pack fits]
      exact most
  | .zero sign =>
      cases sign <;> cases s <;> exact True.intro

theorem mul_zero_of_finite {x y : Float} (zero : x.toModel.unpack = .zero s)
    (finite : y.toModel.unpack.isFinite = true) : ∃ s', (x * y).toModel.unpack = .zero s' := by
  change ∃ s',
    (Float.Model.pack (mul Format.binary64 x.toModel.unpack y.toModel.unpack)).unpack = .zero s'
  rw [zero]
  generalize y.toModel.unpack = f at finite ⊢
  match f with
  | .notANumber | .infinity _ => cases finite
  | .zero sign => exact ⟨s * sign, unpack_pack (f := .zero (s * sign)) trivial⟩
  | .finite sign m e nonzero => exact ⟨s * sign, unpack_pack (f := .zero (s * sign)) trivial⟩

theorem isFinite_packComponents (s : Sign) {exponent : BitVec 11} (mantissa : BitVec 52)
    (last : exponent.toNat ≠ 2047) :
    (unpack Format.binary64 (packComponents Format.binary64 s exponent mantissa)).isFinite =
      true := by
  simp only [unpack, unpackMantissa_packComponents, unpackExponent_packComponents]
  rw [if_neg fun same => last (congrArg BitVec.toNat same)]
  split
  · split <;> rfl
  · rfl

/-- A number is finite unless its exponent is too large, canonical or not. -/
theorem isFinite_pack (s : Sign) (positive : 0 < m) (largest : e ≤ 971) :
    (Float.Model.pack (.finite s m e positive)).unpack.isFinite = true := by
  change (unpack Format.binary64 (pack Format.binary64 (.finite s m e positive))).isFinite = true
  unfold pack
  simp only [biasedExponent_eq]
  rw [if_neg (show ¬2 ^ 11 ≤ (e + 1075).toNat + 1 by omega)]
  split
  · refine isFinite_packComponents s _ ?_
    rw [BitVec.toNat_ofNat]
    omega
  · exact isFinite_packComponents s _ (by decide)

theorem isFinite_round (s : Sign) (low : -1074 ≤ e) (high : e ≤ 967) (small : m < 2 ^ k)
    (range : k + e ≤ 1019) :
    (Float.Model.pack (roundWithAccuracy Format.binary64 s m e accuracy)).unpack.isFinite =
      true := by
  have bound : units (m + excess accuracy) e ≤ units (2 ^ 52) 967 := by
    have step := excess_le_one accuracy
    refine Nat.le_trans (units_le_units (by omega : _ ≤ 2 ^ k) e) ?_
    rw [units_two_pow, units_two_pow]
    exact Nat.pow_le_pow_right (by decide) (by omega)
  have cutBelow : cut m e ≤ 967 := by
    have log : m.log2 ≤ k := by
      rcases Nat.eq_zero_or_pos m with rfl | some
      · exact Nat.zero_le k
      · exact ((Nat.log2_lt some.ne').mpr small).le
    unfold cut
    rw [targetExponent_eq]
    omega
  have first := units_rounded_le low cutBelow bound
  rcases roundWithAccuracy_cases s m e accuracy with ⟨_, result⟩ | ⟨positive, result⟩
  · rw [result, unpack_pack (f := .zero s) trivial]
    rfl
  · have nonzero : rounded m e accuracy ≠ 0 := by
      intro zero
      rw [zero, Nat.zero_div] at positive
      cases positive
    have log := log2_le_of_units (k := 53) nonzero (smallest_le_cut m e) (by decide)
        (by decide) first
    rw [result]
    refine isFinite_pack s positive ?_
    unfold cut at log cutBelow ⊢
    rw [targetExponent_eq (rounded m e accuracy)]
    omega

theorem isFinite_div_sixty {x : Float} (finite : x.toModel.unpack.isFinite = true) :
    (x / Float.ofNat 60).toModel.unpack.isFinite = true := by
  have fits := fits_unpack x.toModel
  change (Float.Model.pack (div Format.binary64 x.toModel.unpack
    (Float.ofNat 60).toModel.unpack)).unpack.isFinite = true
  rw [unpack_ofNat_sixty]
  generalize x.toModel.unpack = f at fits finite ⊢
  match f with
  | .notANumber | .infinity _ => cases finite
  | .zero sign => cases sign <;> rfl
  | .finite sign m e nonzero =>
      obtain ⟨⟨bits, smallest, _⟩, largest⟩ := fits
      let divisor := 60 * 2 ^ 47
      let target := min (e - -47)
        (Format.binary64.targetExponent (totalExponent m e - totalExponent divisor (-47)))
      let shift := (e - -47 - target).toNat
      let quotient := m * 2 ^ shift / divisor
      let accuracy := accuracyOfFraction (m * 2 ^ shift % divisor) divisor
      have result : div Format.binary64 (.finite sign m e nonzero)
          (.finite .positive divisor (-47) (by decide)) =
            roundWithAccuracy Format.binary64 (sign / .positive) quotient target accuracy := by
        simp only [div, divCore, Nat.shiftLeft_eq]
        rfl
      have log : m.log2 < 53 := (Nat.log2_lt nonzero.ne').mpr bits
      have target_eq : target = min (e + 47) (max (m.log2 + e - 58) (-1074)) := by
        have sixty : totalExponent divisor (-47) = 6 := by decide
        have same : target = min (e - -47)
            (Format.binary64.targetExponent (totalExponent m e - 6)) := by
          rw [← sixty]
        simp only [same, Format.targetExponent, totalExponent, Format.mantissaBits,
          Format.minExponent]
        omega
      have small : quotient < 2 ^ (shift + 1) := by
        have powers : 2 ^ (shift + 1) * 2 ^ 52 = 2 ^ 53 * 2 ^ shift := by ring
        have whole : 2 ^ 52 ≤ divisor := by decide
        rw [Nat.div_lt_iff_lt_mul (by decide)]
        calc m * 2 ^ shift < 2 ^ 53 * 2 ^ shift :=
              Nat.mul_lt_mul_of_pos_right bits (Nat.two_pow_pos _)
          _ = 2 ^ (shift + 1) * 2 ^ 52 := powers.symm
          _ ≤ 2 ^ (shift + 1) * divisor := Nat.mul_le_mul_left _ whole
      rw [result]
      exact isFinite_round _ (by omega) (by omega) small (by omega)

variable {x y rate : Float}

theorem AtMost.mono {f : UnpackedFloat} (most : AtMost m f) (order : m ≤ n) : AtMost n f := by
  match f with
  | .notANumber | .infinity .positive => exact most.elim
  | .infinity .negative | .zero _ | .finite .negative .. => exact True.intro
  | .finite .positive m' e _ => exact Nat.le_trans most (units_le_units order 0)

theorem le_ofNat_mono (small : n < 2 ^ 53) (most : x ≤ Float.ofNat m) (order : m ≤ n) :
    x ≤ Float.ofNat n :=
  (le_ofNat_iff small).mpr (((le_ofNat_iff (by omega)).mp most).mono order)

theorem ofNat_le_self (small : n < 2 ^ 53) : Float.ofNat n ≤ Float.ofNat n := by
  rw [le_ofNat_iff small]
  rcases Nat.eq_zero_or_pos n with rfl | positive
  · rw [unpack_ofNat_zero]
    exact True.intro
  · obtain ⟨m, e, some, same, _, value⟩ := unpack_ofNat positive small
    rw [same]
    exact value.le

theorem not_one_le_of_le_zero (most : x ≤ Float.ofNat 0) : ¬Float.ofNat 1 ≤ x := by
  rw [le_ofNat_iff (by decide)] at most
  rw [one_le_iff]
  intro least
  match f : x.toModel.unpack with
  | .notANumber | .infinity .positive =>
      rw [f] at most
      exact most.elim
  | .infinity .negative | .zero _ | .finite .negative .. =>
      rw [f] at least
      exact least.elim
  | .finite .positive m e _ =>
      rw [f] at most least
      exact absurd (le_of_units_le (Nat.le_trans least most)) (by decide)

theorem sub_one_le (small : n + 1 < 2 ^ 53) (most : x ≤ Float.ofNat (n + 1))
    (least : Float.ofNat 1 ≤ x) :
    x - Float.ofNat 1 ≤ Float.ofNat n := by
  rw [le_ofNat_iff (by omega)]
  exact atMost_sub_one small ((le_ofNat_iff small).mp most) (one_le_iff.mp least)

theorem add_zero_mul_le (small : n < 2 ^ 53) (most : x ≤ Float.ofNat n)
    (zero : y.toModel.unpack = .zero s) (finite : rate.toModel.unpack.isFinite = true) :
    x + y * (rate / Float.ofNat 60) ≤ Float.ofNat n := by
  obtain ⟨_, nothing⟩ := mul_zero_of_finite zero (isFinite_div_sixty finite)
  rw [le_ofNat_iff small] at most ⊢
  exact atMost_add_zero nothing most

end Courier.Floating
