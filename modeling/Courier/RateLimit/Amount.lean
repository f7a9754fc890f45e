import Courier.Decimal.Rounding
import Courier.Decimal.Binary
import Courier.Decimal.Shortest
import Courier.Time.Duration

namespace Courier.RateLimit

class Amount (α : Type) extends Add α, Sub α, Mul α, Div α, LE α where
  decideLe : (a b : α) → Decidable (a ≤ b)
  ofNat : Nat → α
  ofDuration : Duration → α
  /-- Seconds as a duration, to the nearest nanosecond, a half to the even one. -/
  toDuration? : α → Option Duration
  /-- Whole tokens, at most 2^32 - 1. -/
  whole : α → Nat
  /-- Greater than zero and not infinite. -/
  isUsable : α → Bool
  text : α → String

instance decidableLe {α : Type} [Amount α] (a b : α) : Decidable (a ≤ b) := Amount.decideLe a b

/-- The smaller amount; the second one if they cannot be compared. -/
def smaller {α : Type} [Amount α] (a b : α) : α := if a ≤ b then a else b

def floatSeconds (d : Duration) : Float :=
  Float.ofNat d.seconds + Float.ofNat d.subsecond / 1000000000.0

/-- Seconds in floating point as a duration, rounded from the exact binary value. -/
def durationOfFloat? (x : Float) : Option Duration :=
  match Decimal.Binary.ofFloat x with
  | .finite negative mantissa exponent =>
    if negative && mantissa != 0 then none
    else
      let (num, den) := Decimal.ratioOfBinary mantissa exponent
      Duration.ofNanos? (Decimal.roundQuotient (num * 1000000000) den)
  | _ => none

instance : Amount Float where
  decideLe := fun a b => inferInstanceAs (Decidable (a ≤ b))
  ofNat := Float.ofNat
  ofDuration := floatSeconds
  toDuration? := durationOfFloat?
  whole := fun x => x.floor.toUInt32.toNat
  isUsable := fun x => x.isFinite && decide (0.0 < x)
  text := Decimal.plain

end Courier.RateLimit
