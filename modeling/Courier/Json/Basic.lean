/-!
JSON values. An object that has been read holds its keys once each, in ascending order; one that is
built to be written keeps the order it was given.
-/
namespace Courier

inductive Json where
  | null
  | bool (b : Bool)
  | integer (n : Int)
  | float (x : Float)
  | string (s : String)
  | array (items : List Json)
  | object (members : List (String × Json))
  deriving Inhabited, BEq

namespace Json

/-- The members with one more, in its place in the order of keys; an older one of its key gives
way. -/
def insertMember (key : String) (value : Json) : List (String × Json) → List (String × Json)
  | [] => [(key, value)]
  | (k, v) :: rest =>
    if key = k then (k, value) :: rest
    else if key < k then (key, value) :: (k, v) :: rest
    else (k, v) :: insertMember key value rest

def get? (key : String) : Json → Option Json
  | object members => members.lookup key
  | _ => none

def text? (key : String) (v : Json) : Option String :=
  match v.get? key with
  | some (string s) => some s
  | _ => none

def ofOption {α : Type} (encode : α → Json) : Option α → Json
  | none => null
  | some a => encode a

def ofNat (n : Nat) : Json := integer n

mutual

/-- The value with other values in the place of its floating-point numbers. -/
def mapFloats (f : Float → Json) : Json → Json
  | float x => f x
  | array items => array (mapFloatsItems f items)
  | object members => object (mapFloatsMembers f members)
  | v => v

def mapFloatsItems (f : Float → Json) : List Json → List Json
  | [] => []
  | v :: rest => mapFloats f v :: mapFloatsItems f rest

def mapFloatsMembers (f : Float → Json) : List (String × Json) → List (String × Json)
  | [] => []
  | (key, v) :: rest => (key, mapFloats f v) :: mapFloatsMembers f rest

end

end Json
end Courier
