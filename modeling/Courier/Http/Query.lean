import Courier.Notification
import Courier.Text.Percent
import Courier.Text.Search
import Courier.Width

namespace Courier.Http.Query

open Courier.Text

/-- A name or value as it was meant: a plus sign stands for a blank. -/
def decodePart (cs : List Char) : String :=
  ofUtf8 (percentDecode (cs.map fun c => if c = '+' then ' ' else c))

def pairs (query : String) : List (String × String) :=
  ((splitOn '&' query.toList).filter fun piece => !piece.isEmpty).map fun piece =>
    match cut? '=' piece with
    | some (name, value) => (decodePart name, decodePart value)
    | none => (decodePart piece, "")

/-- The parameter of that name, read by `parse`; nothing if it comes twice or cannot be read. -/
def param? {α : Type} (query : List (String × String)) (name : String)
    (parse : String → Option α) : Option (Option α) :=
  match query.filter fun (k, _) => k == name with
  | [] => some none
  | [(_, value)] => (parse value).map some
  | _ => none

def index? (s : String) : Option Nat := naturalBelow? Width.limit64 s.toList

def filter? (query : String) : Option Filter := do
  let ps := pairs query
  pure {
    status := ← param? ps "status" Status.ofName?
    channel := ← param? ps "channel_type" Channel.ofName?
    recipient := ← param? ps "recipient" some
    limit := ← param? ps "limit" index?
    offset := ← param? ps "offset" index? }

def limit? (query : String) : Option (Option Nat) := param? (pairs query) "limit" index?

end Courier.Http.Query
