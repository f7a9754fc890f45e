import Courier.Text.Digits

namespace Courier.Decimal

open Courier.Text

/-- The floating-point number nearest to `n * 10 ^ exponent`. Numbers far out of range are settled
by their size, without computing the power. -/
def nearest (n : Nat) (exponent : Int) : Float :=
  let size := (numeral n).length + exponent
  if n = 0 ∨ size < -400 then 0.0
  else if 400 < size then Float.ofBits 0x7ff0000000000000
  else Float.ofScientific n (exponent < 0) exponent.natAbs

/-- Digits, a point and digits, either part possibly empty but not both, and an exponent. -/
def unsigned? (cs : List Char) : Option Float := do
  let whole := cs.takeWhile isDigit
  let rest := cs.dropWhile isDigit
  let (part, rest) :=
    match rest with
    | '.' :: r => (r.takeWhile isDigit, r.dropWhile isDigit)
    | r => ([], r)
  let digits := whole ++ part
  if digits.isEmpty then none
  else
    let n ← decimalNumber? digits
    match rest with
    | [] => pure (nearest n (-(part.length : Int)))
    | e :: power =>
      if e = 'e' ∨ e = 'E' then
        let exponent ← integer? power
        pure (nearest n (exponent - part.length))
      else none

/-- The words for numbers that have no digits, in any case. -/
def word? (cs : List Char) : Option Float :=
  let word := String.ofList (cs.map Char.toLower)
  if word = "inf" ∨ word = "infinity" then some (Float.ofBits 0x7ff0000000000000)
  else if word = "nan" then some (Float.ofBits 0x7ff8000000000000)
  else none

/-- A decimal with an optional sign, in any of its forms. -/
def float? (s : String) : Option Float :=
  match s.toList with
  | '-' :: r => ((unsigned? r).or (word? r)).map fun x => -x
  | '+' :: r => (unsigned? r).or (word? r)
  | r => (unsigned? r).or (word? r)

end Courier.Decimal
