import Courier.Outcome
import Courier.Time.Duration

namespace Courier

inductive EmitError where
  | timeout (after : Duration)
  | network (message : String)
  | http (status : Nat) (message : String)
  | invalidRecipient (message : String)
  | other (message : String)
  deriving DecidableEq

namespace EmitError

def display : EmitError → String
  | timeout after => s!"timed out after {after.millis}ms"
  | network message => "connection error: " ++ message
  | http status message => s!"provider returned HTTP {status}: {message}"
  | invalidRecipient message => "invalid email recipient rejected: " ++ message
  | other message => message

/-- Replies that no repetition of the same request can change. -/
def refusals : List Nat := [400, 403, 404, 422]

/-- A recipient that was rejected and a request that was refused are final; all else may pass. -/
def classify (e : EmitError) : Outcome :=
  match e with
  | invalidRecipient _ => .permanent e.display
  | http status _ =>
    if refusals.contains status then .permanent e.display else .transient e.display
  | _ => .transient e.display

end EmitError
end Courier
