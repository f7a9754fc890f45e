import Courier.Json.Decoder

namespace Courier

structure Principal where
  subject : String
  roles : List String
  deriving DecidableEq

namespace Principal

def adminRole : String := "admin"

def isAdmin (p : Principal) : Bool := p.roles.contains adminRole

def toJson (p : Principal) : Json :=
  .object [("subject", .string p.subject), ("roles", .array (p.roles.map .string))]

structure Draft where
  subject : Option String := none
  roles : Option (List String) := none

def Draft.fields : List (Json.Field Draft) :=
  [.of "subject" subject (fun d v => { d with subject := some v }) Json.text false,
   .of "roles" roles (fun d v => { d with roles := some v }) (Json.listOf Json.text) true]

def Draft.finish (d : Draft) : Option Principal := do
  pure { subject := ← d.subject, roles := d.roles.getD [] }

def decoder : Json.Decoder Principal := Json.record Draft.fields {} Draft.finish

end Principal
end Courier
