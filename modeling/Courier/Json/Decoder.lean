import Courier.Json.Scanner

/-!
Reading JSON text as values of known shapes. A decoder reads one value from the front of a text and
stops at the first fault it meets: JSON of the wrong shape is reported before anything malformed
that stands behind it.
-/
namespace Courier.Json

open Courier.Text

/-- How far reading may go: the number of steps in one array or object, for which the length of the
text is enough, and the number of arrays and objects that may still be opened. -/
structure Limits where
  steps : Nat
  depth : Nat

abbrev Decoder (α : Type) := Limits → List Char → Except Fault (Found α)

/-- Where the next item of an array or object begins, or what follows its closing bracket. -/
inductive NextItem where
  | item (rest : List Char)
  | finished (rest : List Char)

/-- Passes over the comma between items. No comma stands before the first item or behind the last
one. -/
def nextItem (close : Char) (first : Bool) (cs : List Char) : Except Fault NextItem :=
  match skipSpace cs with
  | [] => .error .malformed
  | c :: r =>
    if c = close then .ok (.finished r)
    else if first then .ok (.item (c :: r))
    else if c = ',' then
      match skipSpace r with
      | [] => .error .malformed
      | d :: r => if d = close then .error .malformed else .ok (.item (d :: r))
    else .error .malformed

def itemsFrom {α : Type} (item : List Char → Except Fault (Found α)) :
    (steps : Nat) → (first : Bool) → List Char → Except Fault (Found (List α))
  | 0, _, _ => .error .malformed
  | steps + 1, first, cs => do
    match ← nextItem ']' first cs with
    | .finished rest => .ok ([], rest)
    | .item cs =>
      let (a, rest) ← item cs
      let (others, rest) ← itemsFrom item steps false rest
      .ok (a :: others, rest)

/-- The members of an object after its opening brace, folded into a state. A key says how the state
changes with its value, or is refused at once. -/
def membersFrom {κ σ : Type} (keyToken : List Char → Except Fault (Found κ))
    (member : κ → σ → Except Fault (List Char → Except Fault (Found σ))) :
    (steps : Nat) → (first : Bool) → σ → List Char → Except Fault (Found σ)
  | 0, _, _, _ => .error .malformed
  | steps + 1, first, state, cs => do
    match ← nextItem '\x7d' first cs with
    | .finished rest => .ok (state, rest)
    | .item cs =>
      let (key, rest) ← keyToken cs
      let read ← member key state
      let (_, rest) ← colon rest
      let (state, rest) ← read rest
      membersFrom keyToken member steps false state rest

/-- A value that is no array and no object. -/
def scalar (cs : List Char) : Except Fault (Found Json) :=
  match cs with
  | 'n' :: r => (word ['u', 'l', 'l'] r).map fun (_, rest) => (null, rest)
  | 't' :: r => (word ['r', 'u', 'e'] r).map fun (_, rest) => (bool true, rest)
  | 'f' :: r => (word ['a', 'l', 's', 'e'] r).map fun (_, rest) => (bool false, rest)
  | '"' :: r => (stringBody r).map fun (s, rest) => (string (String.ofList s), rest)
  | r => (number r).map fun (n, rest) => (n.toJson, rest)

/-- Any value, to a depth of arrays and objects. -/
def valueFrom (steps : Nat) : (depth : Nat) → List Char → Except Fault (Found Json)
  | 0, cs => scalar (skipSpace cs)
  | depth + 1, cs =>
    match skipSpace cs with
    | '[' :: r => do
      let (items, rest) ← itemsFrom (valueFrom steps depth) steps true r
      .ok (array items, rest)
    | '\x7b' :: r => do
      let member (key : String) (members : List (String × Json)) :=
        .ok fun cs => do
          let (value, rest) ← valueFrom steps depth cs
          .ok (insertMember key value members, rest)
      let (members, rest) ← membersFrom stringToken member steps true [] r
      .ok (object members, rest)
    | r => scalar r

def value : Decoder Json := fun limits => valueFrom limits.steps limits.depth

def skipFrom (steps : Nat) : (depth : Nat) → List Char → Except Fault (Found Unit)
  | 0, _ => .error .malformed
  | depth + 1, cs =>
    match skipSpace cs with
    | 'n' :: r => word ['u', 'l', 'l'] r
    | 't' :: r => word ['r', 'u', 'e'] r
    | 'f' :: r => word ['a', 'l', 's', 'e'] r
    | '"' :: r => skipStringBody r
    | '[' :: r => (itemsFrom (skipFrom steps depth) steps true r).map fun (_, rest) => ((), rest)
    | '\x7b' :: r =>
      membersFrom skipStringToken (fun _ _ => .ok (skipFrom steps depth)) steps true () r
    | r => skipNumber r

def skip : Decoder Unit := fun limits => skipFrom limits.steps limits.steps

/-- A value of a kind that is not wanted. Words and strings and numbers have to be well formed to
count as such. -/
def mismatch {α : Type} (cs : List Char) : Except Fault (Found α) :=
  match cs with
  | '[' :: _ => .error .unsuitable
  | '\x7b' :: _ => .error .unsuitable
  | r => (scalar r).bind fun _ => .error .unsuitable

/-- Opens one more array or object. -/
def Limits.enter (limits : Limits) : Except Fault Limits :=
  match limits.depth with
  | 0 => .error .malformed
  | depth + 1 => .ok { limits with depth }

def text : Decoder String := fun _ cs =>
  match skipSpace cs with
  | '"' :: r => (stringBody r).map fun (s, rest) => (String.ofList s, rest)
  | r => mismatch r

/-- A string of a form that `parse` understands. -/
def textOf {α : Type} (parse : String → Option α) : Decoder α := fun limits cs => do
  let (s, rest) ← text limits cs
  match parse s with
  | some a => .ok (a, rest)
  | none => .error .unsuitable

/-- A whole number from `low` to `high`. -/
def integerWithin (low high : Int) : Decoder Int := fun _ cs =>
  match skipSpace cs with
  | [] => .error .malformed
  | c :: r => do
    if c = '-' ∨ isDigit c then
      match ← number (c :: r) with
      | (.integer n, rest) => if low ≤ n ∧ n ≤ high then .ok (n, rest) else .error .unsuitable
      | (.float _, _) => .error .unsuitable
    else mismatch (c :: r)

def naturalBelow (bound : Nat) : Decoder Nat := fun limits cs => do
  let (n, rest) ← integerWithin 0 (bound - 1) limits cs
  .ok (n.toNat, rest)

def optional {α : Type} (decoder : Decoder α) : Decoder (Option α) := fun limits cs =>
  match skipSpace cs with
  | 'n' :: r => (word ['u', 'l', 'l'] r).map fun (_, rest) => (none, rest)
  | r => (decoder limits r).map fun (a, rest) => (some a, rest)

def listOf {α : Type} (decoder : Decoder α) : Decoder (List α) := fun limits cs =>
  match skipSpace cs with
  | '[' :: r => do itemsFrom (decoder (← limits.enter)) limits.steps true r
  | r => mismatch r

def nameOf {α : Type} (parse : String → Option α) : Decoder α := fun limits cs =>
  match skipSpace cs with
  | '"' :: r => textOf parse limits ('"' :: r)
  | '\x7b' :: r => do
    let inner ← limits.enter
    let (a, rest) ← textOf parse inner r
    let (_, rest) ← colon rest
    match skipSpace rest with
    | 'n' :: rest =>
      let (_, rest) ← word ['u', 'l', 'l'] rest
      let (_, rest) ← word ['\x7d'] (skipSpace rest)
      .ok (a, rest)
    | rest => mismatch rest
  | _ => .error .malformed

/-- One field of a record that is read member by member into a draft. -/
structure Field (σ : Type) where
  name : String
  isSet : σ → Bool
  read : σ → Decoder σ
  /-- The field may be missing at the end of a record in array form. -/
  mayEnd : Bool

/-- A field of a draft that holds an optional value. -/
def Field.of {σ α : Type} (name : String) (get : σ → Option α) (set : σ → α → σ)
    (decoder : Decoder α) (mayEnd : Bool) : Field σ :=
  { name
    isSet := fun draft => (get draft).isSome
    read := fun draft limits cs => (decoder limits cs).map fun (a, rest) => (set draft a, rest)
    mayEnd }

/-- A record in array form: its fields in their order and nothing after them. -/
def fieldsInOrder {σ : Type} (limits : Limits) :
    List (Field σ) → (first : Bool) → σ → List Char → Except Fault (Found σ)
  | [], first, draft, cs => do
    match ← nextItem ']' first cs with
    | .finished rest => .ok (draft, rest)
    | .item _ => .error .malformed
  | field :: fields, first, draft, cs => do
    match ← nextItem ']' first cs with
    | .finished rest =>
      if (field :: fields).all Field.mayEnd then .ok (draft, rest) else .error .unsuitable
    | .item cs =>
      let (draft, rest) ← field.read draft limits cs
      fieldsInOrder limits fields false draft rest

/-- A record in object form or in array form. Unknown members are passed over, and a known one may
not come twice. -/
def record {σ α : Type} (fields : List (Field σ)) (start : σ) (finish : σ → Option α) :
    Decoder α := fun limits cs => do
  let (draft, rest) ← match skipSpace cs with
    | '\x7b' :: r => do
      let inner ← limits.enter
      let member (key : String) (draft : σ) :=
        match fields.find? fun field => field.name == key with
        | none => .ok fun cs => (skip inner cs).map fun (_, rest) => (draft, rest)
        | some field =>
          if field.isSet draft then .error .unsuitable
          else .ok (field.read draft inner)
      membersFrom stringToken member limits.steps true start r
    | '[' :: r => do fieldsInOrder (← limits.enter) fields true start r
    | r => mismatch r
  match finish draft with
  | some a => .ok (a, rest)
  | none => .error .unsuitable

/-- Arrays and objects may be nested to this depth. -/
def maximalDepth : Nat := 127

def decodeChars {α : Type} (decoder : Decoder α) (cs : List Char) : Except Fault α := do
  let (a, rest) ← decoder ⟨cs.length + 1, maximalDepth⟩ cs
  if (skipSpace rest).isEmpty then .ok a else .error .malformed

def decode {α : Type} (decoder : Decoder α) (s : String) : Except Fault α :=
  decodeChars decoder s.toList

def parse (s : String) : Except Fault Json := decode value s

end Courier.Json
