namespace Courier

inductive Channel where
  | email
  | sms
  | push
  deriving DecidableEq, Inhabited

namespace Channel

def all : List Channel := [email, sms, push]

def name : Channel → String
  | email => "EMAIL"
  | sms => "SMS"
  | push => "PUSH"

def ofName? (s : String) : Option Channel := all.find? fun c => c.name == s

@[simp] theorem ofName?_name (c : Channel) : ofName? c.name = some c := by cases c <;> decide

end Channel
end Courier
