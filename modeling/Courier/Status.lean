namespace Courier

inductive Status where
  | pending
  | queued
  | sent
  | failed
  deriving DecidableEq, Inhabited

namespace Status

def all : List Status := [pending, queued, sent, failed]

def name : Status → String
  | pending => "PENDING"
  | queued => "QUEUED"
  | sent => "SENT"
  | failed => "FAILED"

def ofName? (s : String) : Option Status := all.find? fun x => x.name == s

/-- No delivery is attempted any more. -/
def isTerminal : Status → Bool
  | pending | queued => false
  | sent | failed => true

@[simp] theorem ofName?_name (x : Status) : ofName? x.name = some x := by cases x <;> decide

end Status
end Courier
