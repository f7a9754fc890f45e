import Courier.Text.Digits

namespace Courier.Text

/-- The bytes of a text in which a percent sign and two hexadecimal digits stand for one byte. A
percent sign that no digits follow stands for itself. -/
def percentDecode : List Char → List UInt8
  | '%' :: a :: b :: rest =>
    match hexValue? a, hexValue? b with
    | some high, some low => UInt8.ofNat (16 * high + low) :: percentDecode rest
    | _, _ => 0x25 :: percentDecode (a :: b :: rest)
  | c :: rest => (String.singleton c).toUTF8.toList ++ percentDecode rest
  | [] => []

def ofUtf8? (bytes : List UInt8) : Option String := String.fromUTF8? ⟨bytes.toArray⟩

/-- What stands for bytes that are no text. -/
def replacement : Char := Char.ofNat 0xFFFD

/-- How many bytes follow this first byte of a character, and where the first of them has to lie. -/
def continuation (first : Nat) : Option (Nat × Nat × Nat) :=
  if 0xC2 ≤ first ∧ first ≤ 0xDF then some (1, 0x80, 0xBF)
  else if first = 0xE0 then some (2, 0xA0, 0xBF)
  else if first = 0xED then some (2, 0x80, 0x9F)
  else if 0xE1 ≤ first ∧ first ≤ 0xEF then some (2, 0x80, 0xBF)
  else if first = 0xF0 then some (3, 0x90, 0xBF)
  else if 0xF1 ≤ first ∧ first ≤ 0xF3 then some (3, 0x80, 0xBF)
  else if first = 0xF4 then some (3, 0x80, 0x8F)
  else none

/-- The characters of bytes of which some may be no text: a character begun, with the value so far,
the number of bytes still to come and the bounds of the next of them. Each longest beginning of a
character that breaks off gives one replacement. -/
def lossyFrom : (begun : Option (Nat × Nat × Nat × Nat)) → List UInt8 → List Char
  | none, [] => []
  | some _, [] => [replacement]
  | none, b :: rest =>
    let n := b.toNat
    if n < 0x80 then Char.ofNat n :: lossyFrom none rest
    else
      match continuation n with
      | none => replacement :: lossyFrom none rest
      | some (count, low, high) =>
        let bits := if count = 1 then n % 32 else if count = 2 then n % 16 else n % 8
        lossyFrom (some (bits, count, low, high)) rest
  | some (value, count, low, high), b :: rest =>
    let n := b.toNat
    if low ≤ n ∧ n ≤ high then
      let value := 64 * value + n % 64
      if count ≤ 1 then Char.ofNat value :: lossyFrom none rest
      else lossyFrom (some (value, count - 1, 0x80, 0xBF)) rest
    else if n < 0x80 then replacement :: Char.ofNat n :: lossyFrom none rest
    else
      match continuation n with
      | none => replacement :: replacement :: lossyFrom none rest
      | some (count, low, high) =>
        let bits := if count = 1 then n % 32 else if count = 2 then n % 16 else n % 8
        replacement :: lossyFrom (some (bits, count, low, high)) rest

/-- The bytes as text; what is no text is replaced. -/
def ofUtf8 (bytes : List UInt8) : String := String.ofList (lossyFrom none bytes)

end Courier.Text
