import Courier.Text.Blank
import Courier.Text.Digits
import Courier.Time.Instant

/-!
Instants as RFC 3339 text. Written, an instant is in UTC, ends in `Z` and has the fewest of 0, 3, 6
or 9 fraction digits that are exact; years outside 0000 to 9999 carry a sign. Read, it may have any
offset, blank space around its numbers, and fields with fewer digits.
-/
namespace Courier.Rfc3339

open Courier.Text

/-- Four digits, or a sign and at least four. -/
def renderYear (year : Int) : List Char :=
  if 0 ≤ year ∧ year ≤ 9999 then decimalDigits 4 year.natAbs
  else
    let digits := numeral year.natAbs
    (if year < 0 then '-' else '+') :: (List.replicate (4 - digits.length) '0' ++ digits)

/-- The fraction of a second, in thousands of its unit. -/
def renderFraction (nanos : Nat) : List Char :=
  if nanos = 0 then []
  else if nanos % 1000000 = 0 then '.' :: decimalDigits 3 (nanos / 1000000)
  else if nanos % 1000 = 0 then '.' :: decimalDigits 6 (nanos / 1000)
  else '.' :: decimalDigits 9 nanos

def renderChars (t : Instant) : List Char :=
  let date := Date.ofDayNumber (t.second / 86400)
  let inDay := t.secondOfDay
  let second := if t.isLeap then 60 else inDay % 60
  renderYear date.year ++ ['-'] ++ decimalDigits 2 date.month ++ ['-'] ++ decimalDigits 2 date.day
    ++ ['T'] ++ decimalDigits 2 (inDay / 3600) ++ [':'] ++ decimalDigits 2 (inDay / 60 % 60)
    ++ [':'] ++ decimalDigits 2 second ++ renderFraction (t.nano % 1000000000) ++ ['Z']

def render (t : Instant) : String := String.ofList (renderChars t)

/-- A number of at most `most` digits, at least one of them, and the text after it. -/
def digits? (most : Nat) (cs : List Char) : Option (Nat × List Char) :=
  let run := (cs.take most).takeWhile isDigit
  if run.isEmpty then none
  else (decimalNumber? run).map fun n => (n, cs.drop run.length)

/-- The given character, after any blank space. -/
def literal? (c : Char) (cs : List Char) : Option (List Char) :=
  match trimStart cs with
  | [] => none
  | d :: r => if d = c then some r else none

/-- Up to four digits without a sign, or any number of them after one. -/
def year? (cs : List Char) : Option (Int × List Char) :=
  match trimStart cs with
  | '-' :: r => (digits? r.length r).map fun (n, rest) => (-(n : Int), rest)
  | '+' :: r => (digits? r.length r).map fun (n, rest) => ((n : Int), rest)
  | r => (digits? 4 r).map fun (n, rest) => ((n : Int), rest)

def field? (cs : List Char) : Option (Nat × List Char) := digits? 2 (trimStart cs)

def date? (cs : List Char) : Option (Date × List Char) := do
  let (year, cs) ← year? cs
  let (month, cs) ← field? (← literal? '-' cs)
  let (day, cs) ← field? (← literal? '-' cs)
  pure (⟨year, month, day⟩, cs)

/-- The mark between date and time of day: a T of either case or one space. -/
def separator? : List Char → Option (List Char)
  | 'T' :: r => some r
  | 't' :: r => some r
  | ' ' :: r => some r
  | _ => none

/-- The nanoseconds of a fraction, if one stands here. Digits after the ninth are dropped. -/
def fraction? (cs : List Char) : Option (Nat × List Char) :=
  match cs with
  | '.' :: r =>
    let run := (r.take 9).takeWhile isDigit
    if run.isEmpty then none
    else (decimalNumber? run).map fun n =>
      (n * Nat.pow 10 (9 - run.length), (r.drop run.length).dropWhile isDigit)
  | _ => some (0, cs)

/-- The second of the day and its nanoseconds. Second 60 is the leap second after 59. -/
def time? (cs : List Char) : Option (Nat × Nat × List Char) := do
  let (hour, cs) ← field? cs
  let (minute, cs) ← field? (← literal? ':' cs)
  let (second, cs) ← field? (← literal? ':' cs)
  let (nano, cs) ← fraction? cs
  if 23 < hour ∨ 59 < minute ∨ 60 < second then none
  else if second = 60 then pure (3600 * hour + 60 * minute + 59, 1000000000 + nano, cs)
  else pure (3600 * hour + 60 * minute + second, nano, cs)

def pair? : List Char → Option (Nat × List Char)
  | a :: b :: r => do
    let tens ← digitValue? a
    let ones ← digitValue? b
    pure (10 * tens + ones, r)
  | _ => none

def clockOffset? (cs : List Char) : Option (Nat × List Char) := do
  let (hours, cs) ← pair? cs
  let (minutes, cs) ← pair? (cs.dropWhile fun c => c == ':' || isBlank c)
  if 59 < minutes ∨ 24 ≤ hours then none else pure (3600 * hours + 60 * minutes, cs)

def isUtcName (cs : List Char) : Bool := cs.map Char.toLower == ['u', 't', 'c']

def offset? (cs : List Char) : Option (Int × List Char) :=
  let cs := trimStart cs
  if isUtcName (cs.take 3) then some (0, cs.drop 3)
  else
    match cs with
    | [] => none
    | c :: r =>
      if c = 'Z' ∨ c = 'z' then some (0, r)
      else if c = '+' then (clockOffset? r).map fun (n, rest) => ((n : Int), rest)
      else if c = '-' ∨ c.toNat = 0x2212 then
        (clockOffset? r).map fun (n, rest) => (-(n : Int), rest)
      else none

/-- The instant that a text denotes. Its local date has to exist, and so does the date in UTC. -/
def parseChars (cs : List Char) : Option Instant := do
  let (date, cs) ← date? cs
  let (second, nano, cs) ← time? (← separator? cs)
  let (offset, cs) ← offset? cs
  if (trimStart cs).isEmpty ∧ date.isValid ∧ -262143 ≤ date.year ∧ date.year ≤ 262142 then
    Instant.ofParts? (86400 * date.dayNumber + second - offset) nano
  else none

def parse (s : String) : Option Instant := parseChars s.toList

end Courier.Rfc3339
