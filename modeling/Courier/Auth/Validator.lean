import Courier.Auth.Token
import Courier.Program

namespace Courier.Auth

inductive Validator where
  | signed (secret : String)
  | remote (url : String)
  deriving DecidableEq

abbrev Judgement := Except Error Principal

namespace Validator

def introspectionFailed : Error := .auth "Token introspection failed"

def judgeSigned (secret credential : String) (now : Nat) : Judgement :=
  match decode credential secret now with
  | .ok claims => .ok claims.principal
  | .error e => .error (decodeError e)

def validate (v : Validator) (credential : String) : Prog Judgement :=
  match v with
  | signed secret => do pure (judgeSigned secret credential (← Prog.wallSeconds))
  | remote url => do
    let reason ← Prog.introspect url
    Prog.note ⟨.error, "Token introspection request failed", [("error", .text reason)]⟩
    pure (.error introspectionFailed)

end Validator
end Courier.Auth
