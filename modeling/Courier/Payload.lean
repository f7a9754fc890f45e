import Courier.Text.Blank
import Courier.Json.Basic
import Courier.Error

namespace Courier.Payload

/-- The fields that the message of a channel cannot do without. -/
def requiredFields : Channel → List String
  | .email => ["subject"]
  | .sms => ["body"]
  | .push => ["title"]

def hasText (payload : Json) (field : String) : Bool :=
  match payload.text? field with
  | some s => !Text.isBlankText s
  | none => false

def validate (channel : Channel) : Json → Except Error Unit
  | .object members =>
    match (requiredFields channel).filter fun field => !hasText (.object members) field with
    | [] => .ok ()
    | missing => .error (.missingFields channel missing)
  | _ => .error .payloadNotAnObject

end Courier.Payload
