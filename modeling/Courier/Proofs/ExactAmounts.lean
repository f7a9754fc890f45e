import Mathlib.Algebra.Order.Field.Rat
import Mathlib.Data.Rat.Floor
import Mathlib.Tactic.NormNum
import Courier.RateLimit.Bucket

namespace Courier.RateLimit

/-- Seconds as a duration, to the nearest nanosecond; none for a negative number. -/
def durationOfRat? (x : ℚ) : Option Duration :=
  if x < 0 then none
  else Duration.ofNanos? (Decimal.roundQuotient (x.num.toNat * 1000000000) x.den)

instance : Amount ℚ where
  decideLe := fun a b => inferInstanceAs (Decidable (a ≤ b))
  ofNat := fun n => n
  ofDuration := fun d => d.nanos / 1000000000
  toDuration? := durationOfRat?
  whole := fun x => min ⌊x⌋.toNat 4294967295
  isUsable := fun x => decide (0 < x)
  text := toString

namespace Config

variable (c : Config ℚ)

/-- The seconds that a bucket has to be left alone to be as good as new. -/
def idleSeconds : ℚ := c.idleTtl.nanos / 1000000000

@[simp] theorem full_exact : c.full = (c.capacity : ℚ) := rfl

@[simp] theorem refill_exact (tokens : ℚ) (elapsed : Duration) :
    c.refill tokens elapsed =
      min (tokens + (elapsed.nanos : ℚ) / 1000000000 * c.refillPerSecond) c.capacity := by
  exact (min_def _ _).symm

theorem refill_full : c.refill c.full .zero = c.capacity := by
  simp [Duration.zero]

/-- What `perMinute` lets through: at least one token, and a refill that is positive. -/
theorem of_perMinute {c : Config ℚ} {capacity : Nat} {refillPerMinute : ℚ} {idleTtl : Duration}
    (accepted : Config.perMinute capacity refillPerMinute idleTtl = .ok c) :
    0 < c.capacity ∧ 0 < c.refillPerSecond := by
  unfold perMinute at accepted
  split at accepted
  · exact nomatch accepted
  case isFalse someToken =>
    split at accepted
    case isFalse => exact nomatch accepted
    case isTrue usable =>
      have positive : 0 < refillPerMinute := of_decide_eq_true usable
      obtain rfl := Except.ok.inj accepted
      refine ⟨Nat.pos_of_ne_zero someToken, ?_⟩
      have perSecond : 0 < refillPerMinute / ((60 : ℕ) : ℚ) := div_pos positive (by norm_num)
      exact perSecond

end Config

namespace Buckets

theorem take_exact (b : Bucket ℚ) :
    (1 ≤ b.tokens ∧ take b = ⟨true, b.tokens - 1⟩) ∨
      (b.tokens < 1 ∧ take b = ⟨false, b.tokens⟩) := by
  have one : (Amount.ofNat 1 : ℚ) = 1 := Nat.cast_one
  unfold take
  rw [one]
  by_cases token : 1 ≤ b.tokens
  · exact .inl ⟨token, if_pos token⟩
  · exact .inr ⟨not_le.mp token, if_neg token⟩

end Buckets
end Courier.RateLimit
