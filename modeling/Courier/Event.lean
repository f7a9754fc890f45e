import Courier.Json.Basic

namespace Courier

inductive Level where
  | error
  | warn
  | info
  | debug
  deriving DecidableEq

def Level.name : Level → String
  | .error => "ERROR"
  | .warn => "WARN"
  | .info => "INFO"
  | .debug => "DEBUG"

/-- Counts are logged as numbers and all else as text. -/
inductive LogField where
  | count (n : Nat)
  | text (s : String)
  deriving DecidableEq

structure Event where
  level : Level
  message : String
  fields : List (String × LogField)
  deriving DecidableEq

namespace Event

def toJson (e : Event) : Json :=
  let field : LogField → Json
    | .count n => .ofNat n
    | .text s => .string s
  .object [
    ("level", .string e.level.name),
    ("message", .string e.message),
    ("fields", .object (e.fields.map fun (name, value) => (name, field value)))]

end Event
end Courier
