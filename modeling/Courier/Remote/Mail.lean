import Courier.EmitError
import Courier.Json.Basic
import Courier.Message
import Courier.Text.Lowercase
import Courier.Text.Search

namespace Courier.Remote

structure Mail where
  apiKey : String
  sender : String
  endpoint : String
  deriving DecidableEq

namespace Mail

def name : String := "resend"

/-- What goes to the provider: the value of the header that names the key, and the body. -/
structure Posting where
  url : String
  authorization : String
  body : Json

inductive Reply where
  /-- No answer came in time. -/
  | late (limit : Duration)
  | unreachable (reason : String)
  | lost (reason : String)
  /-- The body of an answer may turn out to be no text. -/
  | answered (status : Nat) (body : Except String String)

/-- A header can hold everything but control characters, of which only tabs are allowed. -/
def isHeaderText (s : String) : Bool :=
  s.toList.all fun c => c == '\t' || (32 ≤ c.toNat && c.toNat ≠ 127)

def posting? (m : Mail) (recipient : String) (message : Message) : Option Posting :=
  if isHeaderText m.apiKey then
    some {
      url := m.endpoint
      authorization := "Bearer " ++ m.apiKey
      body := .object (
        [("from", .string m.sender),
          ("to", .array [.string recipient]),
          ("subject", .string (message.subject.getD "")),
          ("text", .string message.text)] ++
        message.html.toList.map fun html => ("html", .string html)) }
  else none

/-- A complaint about an address means this recipient. -/
def received (recipient : String) : Reply → Except EmitError Unit
  | .late limit => .error (.timeout limit)
  | .unreachable reason => .error (.network reason)
  | .lost reason => .error (.other reason)
  | .answered status body =>
    if 200 ≤ status ∧ status < 300 then .ok ()
    else
      let message :=
        match body with
        | .ok text => text
        | .error reason => s!"<unreadable body: {reason}>"
      if status = 422 ∧ Text.contains "email".toList (Text.lower message.toList) then
        .error (.invalidRecipient recipient)
      else .error (.http status message)

/-- What sending a message comes to, if `carry` brings requests to the provider. -/
def sendBy (carry : Posting → Reply) (m : Mail) (recipient : String) (message : Message) :
    Except EmitError Unit :=
  match m.posting? recipient message with
  | some posting => received recipient (carry posting)
  | none => .error (.other "builder error")

def send : Mail → String → Message → Except EmitError Unit :=
  sendBy fun posting => .unreachable s!"error sending request for url ({posting.url})"

end Mail
end Courier.Remote
