namespace Courier.Text

def hexDigit (n : Nat) : Char :=
  if n < 10 then Char.ofNat (48 + n) else Char.ofNat (87 + n)

/-- The value of a hexadecimal digit of either case. -/
def hexValue? (c : Char) : Option Nat :=
  let n := c.toNat
  if 48 ≤ n ∧ n ≤ 57 then some (n - 48)
  else if 97 ≤ n ∧ n ≤ 102 then some (n - 87)
  else if 65 ≤ n ∧ n ≤ 70 then some (n - 55)
  else none

def digitValue? (c : Char) : Option Nat :=
  let n := c.toNat
  if 48 ≤ n ∧ n ≤ 57 then some (n - 48) else none

/-- The last `width` hexadecimal digits of `n`, most significant first. -/
def hexDigits : (width n : Nat) → List Char
  | 0, _ => []
  | width + 1, n => hexDigits width (n / 16) ++ [hexDigit (n % 16)]

/-- The last `width` decimal digits of `n`, most significant first. -/
def decimalDigits : (width n : Nat) → List Char
  | 0, _ => []
  | width + 1, n => decimalDigits width (n / 10) ++ [Char.ofNat (48 + n % 10)]

def hexNumber? (cs : List Char) : Option Nat :=
  cs.foldlM (fun n c => (hexValue? c).map fun d => 16 * n + d) 0

def decimalNumber? (cs : List Char) : Option Nat :=
  cs.foldlM (fun n c => (digitValue? c).map fun d => 10 * n + d) 0

def isDigit (c : Char) : Bool := (digitValue? c).isSome

/-- A number with an optional plus sign in front and at least one digit. -/
def natural? (cs : List Char) : Option Nat :=
  let digits := if cs.head? = some '+' then cs.drop 1 else cs
  if digits.isEmpty then none else decimalNumber? digits

/-- A number with an optional sign in front and at least one digit. -/
def integer? (cs : List Char) : Option Int :=
  match cs with
  | '-' :: digits =>
    if digits.isEmpty then none else (decimalNumber? digits).map fun n => -(n : Int)
  | _ => (natural? cs).map fun n => (n : Int)

def naturalBelow? (bound : Nat) (cs : List Char) : Option Nat :=
  (natural? cs).filter (· < bound)

/-- The shortest decimal numeral of a natural number. -/
def numeral (n : Nat) : List Char := Nat.toDigits 10 n

end Courier.Text
