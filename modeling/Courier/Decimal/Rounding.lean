namespace Courier.Decimal

/-- The whole number nearest to `num / den`; of two the even one. -/
def roundQuotient (num den : Nat) : Nat :=
  let q := num / den
  let twice := 2 * (num % den)
  if twice < den then q
  else if den < twice then q + 1
  else q + q % 2

theorem roundQuotient_near {num den : Nat} (h : 0 < den) :
    2 * num ≤ 2 * (den * roundQuotient num den) + den ∧
      2 * (den * roundQuotient num den) ≤ 2 * num + den := by
  have split_num := Nat.div_add_mod num den
  have small := Nat.mod_lt num h
  unfold roundQuotient
  generalize num / den = q at *
  generalize num % den = r at *
  have succ : den * (q + 1) = den * q + den := Nat.mul_succ den q
  simp only
  split
  · omega
  · split
    · omega
    · rcases Nat.mod_two_eq_zero_or_one q with even | odd
      · rw [even, Nat.add_zero]; omega
      · rw [odd]; omega

end Courier.Decimal
