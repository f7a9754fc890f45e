namespace Courier.Decimal

inductive Binary where
  | notANumber
  | infinite (negative : Bool)
  | finite (negative : Bool) (mantissa : Nat) (exponent : Int)
  deriving DecidableEq

namespace Binary

def leastExponent : Int := -1074

/-- The bit above the fraction, which has fifty-two bits. -/
def hiddenBit : Nat := 0x10000000000000

/-- The parts of a number in the 64-bit format: one sign bit, eleven bits of exponent and fifty-two
of fraction, with a hidden bit above the fraction unless the exponent bits are zero. -/
def ofBits (bits : Nat) : Binary :=
  let negative := (bits >>> 63) % 2 == 1
  let exponent := (bits >>> 52) % 2048
  let fraction := bits % hiddenBit
  if exponent = 2047 then (if fraction = 0 then infinite negative else notANumber)
  else if exponent = 0 then finite negative fraction leastExponent
  else finite negative (hiddenBit + fraction) ((exponent : Int) - 1 + leastExponent)

def ofFloat (x : Float) : Binary := ofBits x.toBits.toNat

end Binary

/-- Numerator and denominator of `mantissa * 2 ^ exponent`. -/
def ratioOfBinary (mantissa : Nat) (exponent : Int) : Nat × Nat :=
  let power := Nat.pow 2 exponent.natAbs
  if 0 ≤ exponent then (mantissa * power, 1) else (mantissa, power)

end Courier.Decimal
