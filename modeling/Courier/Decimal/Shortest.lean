import Courier.Text.Digits
import Courier.Decimal.Binary
import Courier.Decimal.Fixed

/-!
The fewest decimal digits that read back as the same floating-point number, and of those the
nearest to it; two layouts of them, one always positional and one with an exponent for numbers that
are very large or very small.
-/
namespace Courier.Decimal

open Courier.Text

/-- A positive number and the numbers around it that round to it, over one denominator. The ends
belong to the range for even mantissas. -/
structure RoundingRange where
  value : Nat
  low : Nat
  high : Nat
  den : Nat
  closed : Bool

namespace RoundingRange

/-- Half the gap to each neighbour; below a power of two the gap is half as wide. -/
def ofBinary (mantissa : Nat) (exponent : Int) : RoundingRange :=
  let below := if mantissa = Binary.hiddenBit ∧ Binary.leastExponent < exponent then 1 else 2
  let (unit, den) := ratioOfBinary 1 (exponent - 2)
  { value := 4 * mantissa * unit
    low := (4 * mantissa - below) * unit
    high := (4 * mantissa + 2) * unit
    den := den
    closed := mantissa % 2 == 0 }

/-- The number `num / scale`, over a denominator of its own, rounds to the value. -/
def holds (r : RoundingRange) (num scale : Nat) : Bool :=
  let x := num * r.den
  if r.closed then r.low * scale ≤ x && x ≤ r.high * scale
  else r.low * scale < x && x < r.high * scale

end RoundingRange

/-- The power of ten of the leading digit of `num / den`. -/
def leadingPower (num den : Nat) : Int :=
  if den ≤ num then (numeral (num / den)).length - 1
  else
    let n := (numeral (den / num)).length
    if den ≤ num * Nat.pow 10 (n - 1) then 1 - n else -n

/-- Digits `digits * 10 ^ power` that lie in the range, on the grid of that power, if one of the two
grid points around the value does. -/
def onGrid? (r : RoundingRange) (power : Int) : Option Nat :=
  let up := if 0 ≤ power then Nat.pow 10 power.natAbs else 1
  let scale := if 0 ≤ power then 1 else Nat.pow 10 power.natAbs
  let den := r.den * up
  let num := r.value * scale
  let floor := num / den
  let isIn (n : Nat) : Bool := r.holds (n * up) scale
  let twice := 2 * (num % den)
  match isIn floor && floor != 0, isIn (floor + 1) with
  | true, true =>
    some (if twice < den ∨ (twice = den ∧ floor % 2 = 0) then floor else floor + 1)
  | true, false => some floor
  | false, true => some (floor + 1)
  | false, false => none

/-- The first grid, from coarse to fine, that has a point in the range. -/
def firstGrid (r : RoundingRange) : (tries : Nat) → (power : Int) → Nat × Int
  | 0, power => (r.value / r.den, power)
  | tries + 1, power =>
    match onGrid? r power with
    | some digits => (digits, power)
    | none => firstGrid r tries (power - 1)

/-- Digits without zeros at the end, and the power of ten of the last one. -/
def withoutZeros : (tries digits : Nat) → (power : Int) → Nat × Int
  | 0, digits, power => (digits, power)
  | tries + 1, digits, power =>
    if digits % 10 = 0 then withoutZeros tries (digits / 10) (power + 1) else (digits, power)

/-- The shortest digits of a positive number, and the power of ten of the last one. -/
def shortestDigits (mantissa : Nat) (exponent : Int) : List Char × Int :=
  let r := RoundingRange.ofBinary mantissa exponent
  let (digits, power) := firstGrid r 17 (leadingPower r.value r.den)
  let (digits, power) := withoutZeros 17 digits power
  (numeral digits, power)

def positional (digits : List Char) (power : Int) : List Char :=
  if 0 ≤ power then digits ++ List.replicate power.natAbs '0'
  else
    let places := power.natAbs
    let padded := List.replicate (places + 1 - digits.length) '0' ++ digits
    padded.take (padded.length - places) ++ ['.'] ++ padded.drop (padded.length - places)

def plain (x : Float) : String :=
  match Binary.ofFloat x with
  | .notANumber => "NaN"
  | .infinite negative => minus negative ++ "inf"
  | .finite negative 0 _ => minus negative ++ "0"
  | .finite negative mantissa exponent =>
    let (digits, power) := shortestDigits mantissa exponent
    minus negative ++ String.ofList (positional digits power)

/-- Positional with at least one decimal while the number lies between 10^-5 and 10^16; otherwise
one digit, a point if more follow, and an exponent. Infinities and NaN have no such form and are
written as null. -/
def scientific (x : Float) : String :=
  match Binary.ofFloat x with
  | .notANumber => "null"
  | .infinite _ => "null"
  | .finite negative 0 _ => minus negative ++ "0.0"
  | .finite negative mantissa exponent =>
    let (digits, power) := shortestDigits mantissa exponent
    let places : Int := digits.length + power
    let text :=
      if 0 ≤ power ∧ places ≤ 16 then positional digits power ++ ['.', '0']
      else if power < 0 ∧ -5 < places ∧ places ≤ 16 then positional digits power
      else
        let mark := toString (places - 1)
        match digits with
        | [d] => d :: 'e' :: mark.toList
        | d :: rest => d :: '.' :: rest ++ 'e' :: mark.toList
        | [] => []
    minus negative ++ String.ofList text

end Courier.Decimal
