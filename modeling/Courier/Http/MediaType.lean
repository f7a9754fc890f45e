import Courier.Text.Search

namespace Courier.Http

open Courier.Text

/-- A media type in lower case, without its parameters. -/
structure MediaType where
  kind : List Char
  subtype : List Char
  /-- What the subtype is built on. -/
  base : Option (List Char)
  deriving DecidableEq

namespace MediaType

/-- Names and plain values are made of these. -/
def isTokenChar (c : Char) : Bool := c.isAlphanum || "!#$%&'*+-.^_`|~".toList.contains c

def isQuotable (c : Char) : Bool := 32 ≤ c.toNat && c.toNat ≠ 127

/-- Where reading the parameters stands. -/
inductive Place where
  | start
  | name
  /-- In a plain value, of which something may have been read. -/
  | value (begun : Bool)
  /-- In a quoted value. A quote as its first character is part of it. -/
  | quoted (begun : Bool)
  | escaped
  | behind
  deriving DecidableEq

namespace Place

def next? (c : Char) : Place → Option Place
  | start => if c = ' ' then some start else if isTokenChar c then some name else none
  | name => if c = '=' then some (value false) else if isTokenChar c then some name else none
  | value begun =>
    if c = '"' ∧ !begun then some (quoted false)
    else if c = ';' ∧ begun then some start
    else if isTokenChar c then some (value true)
    else none
  | quoted begun =>
    if c = '"' ∧ begun then some behind
    else if c = '\\' then some escaped
    else if isQuotable c then some (quoted true)
    else none
  | escaped => if isQuotable c then some (quoted true) else none
  | behind => if c = ';' then some start else if c = ' ' then some behind else none

def isEnd : Place → Bool
  | start | value _ | behind => true
  | name | quoted _ | escaped => false

end Place

/-- Parameters after the first semicolon, of which there may be none. -/
def areParameters (cs : List Char) : Bool :=
  (cs.foldlM (fun (place : Place) c => place.next? c) .start).any Place.isEnd

/-- The subtype, with what stands behind its last plus sign. A plus sign in front is part of it. -/
def ofSubtype (kind sub : List Char) : MediaType :=
  match cutLast? '+' (sub.drop 1) with
  | none => ⟨kind, sub, none⟩
  | some (before, base) => ⟨kind, sub.take 1 ++ before, some base⟩

def parse? (s : String) : Option MediaType := do
  let (kind, rest) ← cut? '/' s.toList
  let sub := rest.takeWhile (· != ';')
  let parameters := rest.drop (sub.length + 1)
  let lower (cs : List Char) := cs.map Char.toLower
  if kind.isEmpty ∨ !kind.all isTokenChar ∨ !sub.all isTokenChar then none
  else if sub.isEmpty ∧ !rest.isEmpty ∨ !areParameters parameters then none
  else pure (ofSubtype (lower kind) (lower sub))

/-- JSON, or a format that is built on it. -/
def isJson (m : MediaType) : Bool :=
  m.kind == "application".toList
    && (m.subtype == "json".toList || m.base == some "json".toList)

end MediaType
end Courier.Http
