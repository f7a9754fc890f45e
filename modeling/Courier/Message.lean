import Courier.PlainText
import Courier.Notification

namespace Courier

structure Message where
  subject : Option String
  text : String
  html : Option String
  deriving DecidableEq

inductive RenderError where
  | notAnObject
  | missingField (name : String)
  deriving DecidableEq

namespace RenderError

def display : RenderError → String
  | notAnObject => "payload must be a JSON object"
  | missingField name => s!"payload field '{name}' is missing or not a string"

end RenderError

namespace Message

/-- The text of a field without blanks around it, if anything is left. -/
def field? (payload : Json) (name : String) : Option String :=
  match payload.text? name with
  | none => none
  | some s => if Text.isBlankText s then none else some (Text.trimmed s)

def required (payload : Json) (name : String) : Except RenderError String :=
  match field? payload name with
  | some s => .ok s
  | none => .error (.missingField name)

/-- Mail without a body has the plain text of its hypertext, or else its subject. -/
def emailText (payload : Json) (subject : String) : String :=
  match field? payload "body", field? payload "html" with
  | some body, _ => body
  | none, some html => PlainText.ofHtml html
  | none, none => subject

def render (channel : Channel) (payload : Json) : Except RenderError Message :=
  match payload with
  | .object _ =>
    match channel with
    | .email => do
      let subject ← required payload "subject"
      .ok ⟨some subject, emailText payload subject, field? payload "html"⟩
    | .sms => do .ok ⟨none, ← required payload "body", none⟩
    | .push => do
      let title ← required payload "title"
      .ok ⟨some title, (field? payload "body").getD "", none⟩
  | _ => .error .notAnObject

def toJson (m : Message) : Json :=
  .object [
    ("subject", Json.ofOption .string m.subject),
    ("text", .string m.text),
    ("html", Json.ofOption .string m.html)]

end Message
end Courier
