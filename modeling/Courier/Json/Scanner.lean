import Courier.Json.Basic
import Courier.Text.Digits
import Courier.Text.Search
import Courier.Width

namespace Courier.Json

open Courier.Text

/-- What is wrong with a text: it is no JSON, or it is JSON of the wrong shape. Reading stops at
the first fault, so JSON of the wrong shape may be malformed further on. -/
inductive Fault where
  | malformed
  | unsuitable
  deriving DecidableEq

abbrev Found (α : Type) := α × List Char

def isSpace (c : Char) : Bool := c == ' ' || c == '\n' || c == '\t' || c == '\r'

def skipSpace (cs : List Char) : List Char := cs.dropWhile isSpace

def word (w cs : List Char) : Except Fault (Found Unit) :=
  match after? w cs with
  | some r => .ok ((), r)
  | none => .error .malformed

def colon (cs : List Char) : Except Fault (Found Unit) := word [':'] (skipSpace cs)

def escaped? (c : Char) : Option Char :=
  if c = '"' ∨ c = '\\' ∨ c = '/' then some c
  else if c = 'b' then some (Char.ofNat 8)
  else if c = 'f' then some (Char.ofNat 12)
  else if c = 'n' then some '\n'
  else if c = 'r' then some '\r'
  else if c = 't' then some '\t'
  else none

def isHighSurrogate (n : Nat) : Bool := 0xD800 ≤ n && n ≤ 0xDBFF

def isLowSurrogate (n : Nat) : Bool := 0xDC00 ≤ n && n ≤ 0xDFFF

/-- The rest of a string after its opening quote. Surrogates have to come in pairs. -/
def stringBody : List Char → Except Fault (Found (List Char))
  | [] => .error .malformed
  | '"' :: r => .ok ([], r)
  | '\\' :: 'u' :: a :: b :: c :: d :: r =>
    match hexNumber? [a, b, c, d] with
    | none => .error .malformed
    | some n =>
      if isLowSurrogate n then .error .malformed
      else if isHighSurrogate n then
        match r with
        | '\\' :: 'u' :: a :: b :: c :: d :: r =>
          match hexNumber? [a, b, c, d] with
          | none => .error .malformed
          | some low =>
            if isLowSurrogate low then do
              let (s, rest) ← stringBody r
              .ok (Char.ofNat (0x10000 + 0x400 * (n - 0xD800) + (low - 0xDC00)) :: s, rest)
            else .error .malformed
        | _ => .error .malformed
      else do
        let (s, rest) ← stringBody r
        .ok (Char.ofNat n :: s, rest)
  | '\\' :: c :: r =>
    match escaped? c with
    | none => .error .malformed
    | some e => do
      let (s, rest) ← stringBody r
      .ok (e :: s, rest)
  | c :: r =>
    if c.toNat < 32 ∨ c = '\\' then .error .malformed
    else do
      let (s, rest) ← stringBody r
      .ok (c :: s, rest)

def stringToken : List Char → Except Fault (Found String)
  | '"' :: r => (stringBody r).map fun (s, rest) => (String.ofList s, rest)
  | _ => .error .malformed

/-- Passes over the rest of a string, whose escaped surrogates need not come in pairs. -/
def skipStringBody : List Char → Except Fault (Found Unit)
  | [] => .error .malformed
  | '"' :: r => .ok ((), r)
  | '\\' :: 'u' :: a :: b :: c :: d :: r =>
    if (hexNumber? [a, b, c, d]).isSome then skipStringBody r else .error .malformed
  | '\\' :: c :: r => if (escaped? c).isSome then skipStringBody r else .error .malformed
  | c :: r => if c.toNat < 32 ∨ c = '\\' then .error .malformed else skipStringBody r

def skipStringToken : List Char → Except Fault (Found Unit)
  | '"' :: r => skipStringBody r
  | _ => .error .malformed

/-- A number as it is written: whole, or with a fraction or an exponent. Whole numbers that do not
fit in 64 bits become floating-point numbers, and so does minus zero. -/
inductive Number where
  | integer (n : Int)
  | float (x : Float)

def Number.toJson : Number → Json
  | .integer n => .integer n
  | .float x => .float x

def powerOfTen (n : Nat) : Float := Float.ofScientific 1 false n

/-- `x * 10 ^ exponent` by one multiplication or division, and by steps of 10^308 below that;
nothing when the result is too large. -/
def scaled? : (steps : Nat) → (x : Float) → (exponent : Int) → Option Float
  | 0, x, _ => some x
  | steps + 1, x, exponent =>
    if 0 ≤ exponent then
      if exponent ≤ 308 then
        let y := x * powerOfTen exponent.natAbs
        if y.isInf then none else some y
      else if x == 0.0 then some x
      else none
    else if -308 ≤ exponent then some (x / powerOfTen exponent.natAbs)
    else if x == 0.0 then some x
    else scaled? steps (x / powerOfTen 308) (exponent + 308)

/-- The floating-point number for the digits of a significand and a power of ten. -/
def floatNumber (negative : Bool) (significand : Nat) (exponent : Int) (rest : List Char) :
    Except Fault (Found Number) :=
  match scaled? 16 (Float.ofNat significand) exponent with
  | none => .error .malformed
  | some x => .ok (.float (if negative then -x else x), rest)

def significandLimit : Nat := Width.limit64

/-- Exponents lie below this; a larger one is infinite for all purposes. -/
def powerLimit : Nat := 0x80000000

def exponentPart (negative : Bool) (significand : Nat) (start : Int) (cs : List Char) :
    Except Fault (Found Number) :=
  let (below, cs) :=
    match cs with
    | '+' :: r => (false, r)
    | '-' :: r => (true, r)
    | r => (false, r)
  let run := cs.takeWhile isDigit
  let rest := cs.dropWhile isDigit
  match run, decimalNumber? run with
  | [], _ => .error .malformed
  | _, none => .error .malformed
  | _, some power =>
    if powerLimit ≤ power then
      if significand ≠ 0 ∧ !below then .error .malformed
      else .ok (.float (if negative then -0.0 else 0.0), rest)
    else floatNumber negative significand (if below then start - power else start + power) rest

/-- The digits of a fraction that the significand still has room for, and their count. -/
def fractionDigits : (significand places : Nat) → List Char → Nat × Nat × List Char
  | significand, places, [] => (significand, places, [])
  | significand, places, c :: r =>
    match digitValue? c with
    | none => (significand, places, c :: r)
    | some d =>
      if significandLimit ≤ 10 * significand + d then
        (significand, places, (c :: r).dropWhile isDigit)
      else fractionDigits (10 * significand + d) (places + 1) r

/-- What follows the whole part of a number that is not whole. -/
def fractionPart (negative : Bool) (significand : Nat) (start : Int) (cs : List Char) :
    Except Fault (Found Number) :=
  match cs with
  | [] => .error .malformed
  | c :: _ =>
    if isDigit c then
      let (significand, places, rest) := fractionDigits significand 0 cs
      let exponent := start - places
      match rest with
      | 'e' :: r => exponentPart negative significand exponent r
      | 'E' :: r => exponentPart negative significand exponent r
      | rest => floatNumber negative significand exponent rest
    else .error .malformed

def afterWhole (negative : Bool) (significand : Nat) (cs : List Char) :
    Except Fault (Found Number) :=
  match cs with
  | '.' :: r => fractionPart negative significand 0 r
  | 'e' :: r => exponentPart negative significand 0 r
  | 'E' :: r => exponentPart negative significand 0 r
  | rest =>
    if !negative then .ok (.integer significand, rest)
    else if significand = 0 ∨ Width.signedLimit64 < significand then
      .ok (.float (-Float.ofNat significand), rest)
    else .ok (.integer (-(significand : Int)), rest)

/-- The rest of a whole part whose significand is full: each further digit is a power of ten. -/
def longWhole (negative : Bool) (significand : Nat) (cs : List Char) :
    Except Fault (Found Number) :=
  let exponent : Int := (cs.takeWhile isDigit).length
  match cs.dropWhile isDigit with
  | '.' :: r => fractionPart negative significand exponent r
  | 'e' :: r => exponentPart negative significand exponent r
  | 'E' :: r => exponentPart negative significand exponent r
  | rest => floatNumber negative significand exponent rest

def wholePart (negative : Bool) : (significand : Nat) → List Char → Except Fault (Found Number)
  | significand, [] => afterWhole negative significand []
  | significand, c :: r =>
    match digitValue? c with
    | none => afterWhole negative significand (c :: r)
    | some d =>
      if significandLimit ≤ 10 * significand + d then longWhole negative significand (c :: r)
      else wholePart negative (10 * significand + d) r

/-- A number without its sign; no further digit follows a leading zero. -/
def unsignedNumber (negative : Bool) (cs : List Char) : Except Fault (Found Number) :=
  match cs with
  | [] => .error .malformed
  | '0' :: r =>
    if (r.head?.map isDigit).getD false then .error .malformed else afterWhole negative 0 r
  | c :: _ => if isDigit c then wholePart negative 0 cs else .error .malformed

def number (cs : List Char) : Except Fault (Found Number) :=
  match cs with
  | '-' :: r => unsignedNumber true r
  | _ => unsignedNumber false cs

def skipDigits (cs : List Char) : Except Fault (Found Unit) :=
  if (cs.head?.map isDigit).getD false then .ok ((), cs.dropWhile isDigit)
  else .error .malformed

def skipExponent (cs : List Char) : Except Fault (Found Unit) :=
  match cs with
  | '+' :: r => skipDigits r
  | '-' :: r => skipDigits r
  | r => skipDigits r

def skipAfterWhole (cs : List Char) : Except Fault (Found Unit) :=
  match cs with
  | '.' :: r => do
    let (_, rest) ← skipDigits r
    match rest with
    | 'e' :: r => skipExponent r
    | 'E' :: r => skipExponent r
    | rest => .ok ((), rest)
  | 'e' :: r => skipExponent r
  | 'E' :: r => skipExponent r
  | rest => .ok ((), rest)

def skipNumber (cs : List Char) : Except Fault (Found Unit) :=
  let digits := if cs.head? = some '-' then cs.drop 1 else cs
  match digits with
  | '0' :: r =>
    if (r.head?.map isDigit).getD false then .error .malformed else skipAfterWhole r
  | c :: r => if isDigit c then skipAfterWhole (r.dropWhile isDigit) else .error .malformed
  | [] => .error .malformed

end Courier.Json
