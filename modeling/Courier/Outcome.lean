namespace Courier

inductive Outcome where
  | success
  /-- Worth another attempt. -/
  | transient (message : String)
  /-- No further attempt can succeed. -/
  | permanent (message : String)
  deriving DecidableEq

namespace Outcome

def display : Outcome → String
  | success => "success"
  | transient message => "transient failure: " ++ message
  | permanent message => "permanent failure: " ++ message

end Outcome
end Courier
