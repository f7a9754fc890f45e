import Courier.Text.Digits
import Courier.Decimal.Binary
import Courier.Decimal.Rounding

namespace Courier.Decimal

open Courier.Text

def minus (negative : Bool) : String := if negative then "-" else ""

def placed (places n : Nat) : String :=
  let whole := String.ofList (numeral (n / Nat.pow 10 places))
  if places = 0 then whole else whole ++ "." ++ String.ofList (decimalDigits places n)

def fixed (places : Nat) (x : Float) : String :=
  match Binary.ofFloat x with
  | .notANumber => "NaN"
  | .infinite negative => minus negative ++ "inf"
  | .finite negative mantissa exponent =>
    let (num, den) := ratioOfBinary mantissa exponent
    minus negative ++ placed places (roundQuotient (num * Nat.pow 10 places) den)

end Courier.Decimal
