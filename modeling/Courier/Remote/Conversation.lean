import Courier.Text.Digits
import Courier.Width

/-!
Conversations with a data server that runs scripts. Each command gets one reply, in order. A script
is run by its name; a server that does not know it is given the script and asked once more.
-/
namespace Courier.Remote

inductive Reply where
  | nil
  | integer (n : Int)
  | text (s : String)
  /-- A command without a result was carried out. -/
  | done
  | list (items : List Reply)
  | refusal (reason : String)

inductive Argument where
  | text (s : String)
  | integer (n : Int)
  | amount (x : Float)

inductive Command where
  | run (keys : List String) (args : List Argument)
  | loadScript
  | words (ws : List String)

inductive Failure where
  | refused (reason : String)
  | unexpected
  deriving DecidableEq

def Failure.message : Failure → String
  | .refused reason => reason
  | .unexpected => "unexpected reply"

/-- What the server will still reply, and what it has been sent, in reverse. A server that has
nothing more to say replies nil. -/
structure Session where
  replies : List Reply
  sent : List Command := []

abbrev Talk (α : Type) := StateM Session α

namespace Reply

mutual

/-- The first refusal in a reply, at any depth. -/
def refusal? : Reply → Option String
  | refusal reason => some reason
  | list items => refusalIn? items
  | _ => none

def refusalIn? : List Reply → Option String
  | [] => none
  | r :: rest => (refusal? r).or (refusalIn? rest)

end

/-- A reply that holds no refusal. -/
def accepted (r : Reply) : Except Failure Reply :=
  match r.refusal? with
  | some reason => .error (.refused reason)
  | none => .ok r

/-- A whole number that `read` takes from a text or `wrap` from an integer. -/
def number {α : Type} (wrap : Int → α) (read : List Char → Option α) :
    Reply → Except Failure α
  | integer n => .ok (wrap n)
  | text s =>
    match read s.toList with
    | some a => .ok a
    | none => .error .unexpected
  | _ => .error .unexpected

/-- The whole number in a text, of 64 bits with a sign. -/
def signed64? (cs : List Char) : Option Int :=
  (Text.integer? cs).filter Width.isSigned64

def signed (r : Reply) : Except Failure Int := r.number id signed64?

def count (r : Reply) : Except Failure Nat :=
  r.number (fun n => (n % Width.limit64).toNat) (Text.naturalBelow? Width.limit64)

def string : Reply → Except Failure String
  | text s => .ok s
  | integer n => .ok (toString n)
  | done => .ok "OK"
  | _ => .error .unexpected

def pair {α β : Type} (first : Reply → Except Failure α) (second : Reply → Except Failure β) :
    Reply → Except Failure (α × β)
  | list [a, b] => do .ok (← first a, ← second b)
  | _ => .error .unexpected

def optional {α : Type} (read : Reply → Except Failure α) : Reply → Except Failure (Option α)
  | nil => .ok none
  | r => (read r).map some

end Reply

def send (c : Command) : Talk (Except Failure Reply) := fun s =>
  (((s.replies.head?).getD .nil).accepted, ⟨s.replies.drop 1, c :: s.sent⟩)

/-- The first word of the reason why a script was not run when the server does not know it. -/
def unknownScript : List Char := "NOSCRIPT".toList

/-- Runs a script. If the server does not know it, it is given the script and asked once more. -/
def runScript (keys : List String) (args : List Argument) : Talk (Except Failure Reply) := do
  match ← send (.run keys args) with
  | .error (.refused reason) =>
    if reason.toList.takeWhile (· != ' ') = unknownScript then
      match ← send .loadScript with
      | .error e => pure (.error e)
      | .ok _ => send (.run keys args)
    else pure (.error (.refused reason))
  | r => pure r

end Courier.Remote
