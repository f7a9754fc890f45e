import Courier.Auth.Validator
import Courier.Health.Check
import Courier.Http.Query
import Courier.Http.Route
import Courier.RateLimit.Limiter
import Courier.Recovery.Admin
import Courier.Service

/-!
The web interface as a program for each request: the rate limit first, then the caller, then the
parameters and the body, then the work.
-/
namespace Courier.Http

open Prog

/-- What the bucket of a request is chosen by: the caller, if there is one, or the address. -/
inductive KeyMode where
  | address
  | principal
  deriving DecidableEq

structure App where
  policy : Retry.Policy
  health : Health.Config
  limiter : RateLimit.Limiter Float
  keyMode : KeyMode
  validate : String → Prog Auth.Judgement

namespace App

def missingToken : Error :=
  .auth "Missing or invalid Authorization header. Use 'Bearer <token>'"

/-- The bucket for a request, and the caller if the bucket is chosen by it. -/
def bucketKey (app : App) (r : Request) : Prog (String × Option Principal) := do
  let byAddress := ("ip:" ++ r.clientAddress, none)
  match app.keyMode, r.bearerText? with
  | .principal, some credential =>
    match ← app.validate credential with
    | .ok p => pure ("principal:" ++ p.subject, some p)
    | .error _ => pure byAddress
  | _, _ => pure byAddress

/-- The caller of a request, who may be known from the choice of the bucket. -/
def caller (app : App) (known : Option Principal) (r : Request) : Prog Auth.Judgement :=
  match known with
  | some p => pure (.ok p)
  | none =>
    match r.bearerToken? with
    | some credential => app.validate credential
    | none => pure (.error missingToken)

def administrator (app : App) (known : Option Principal) (r : Request) : Prog Auth.Judgement := do
  match ← app.caller known r with
  | .error e => pure (.error e)
  | .ok p =>
    if p.isAdmin then pure (.ok p)
    else do
      note ⟨.warn, "Non-admin caller refused", [("subject", .text p.subject)]⟩
      pure (.error (.forbidden "Admin role required"))

def respond {α : Type} (status : Nat) (encode : α → Json) : Except Error α → Response
  | .ok a => .json status (encode a)
  | .error e => e.toResponse

def defaultPage : Nat := 50

def largestPage : Nat := 200

def list (filter : Filter) : Prog Response := do
  let limit := filter.limit.getD defaultPage
  let offset := filter.offset.getD 0
  if limit = 0 ∨ largestPage < limit then
    pure (Error.validation s!"limit must be between 1 and {largestPage}").toResponse
  else do
    let result ← Service.list { filter with limit := some limit, offset := some offset }
    let encode (items : List Notification) : Json :=
      .object [
        ("items", .array (items.map Notification.toJson)),
        ("count", .ofNat items.length),
        ("limit", .ofNat limit),
        ("offset", .ofNat offset)]
    pure (respond 200 encode result)

def create (p : Principal) (r : Request) : Prog Response := do
  if !r.declaresJson then pure (.refusal 415)
  else
    match Json.decode Submission.decoder r.body with
    | .error .malformed => pure (.refusal 400)
    | .error .unsuitable => pure (.refusal 422)
    | .ok submission => do
      match ← Service.create submission with
      | .error e => pure e.toResponse
      | .ok n =>
        note ⟨.info, "Notification accepted",
          [Service.idField n.id, ("subject", .text p.subject)]⟩
        pure (.json 201 n.toJson)

def limitText : Option Nat → String
  | none => "None"
  | some n => s!"Some({n})"

def retryFailed (p : Principal) (limit : Option Nat) : Prog Response := do
  if limit = some 0 then pure (Error.validation "limit must be at least 1").toResponse
  else
    note ⟨.info, "Bulk retry requested",
      [("admin", .text p.subject), ("limit", .text (limitText limit))]⟩
    let result ← Recovery.retryFailed limit
    pure (respond 200 Recovery.Summary.toJson result)

def retryOne (p : Principal) (id : Uuid) : Prog Response := do
  note ⟨.info, "Single retry requested", [("admin", .text p.subject), Service.idField id]⟩
  let result ← Recovery.retryOne id
  pure (respond 200 Notification.toJson result)

def withCaller (judgement : Prog Auth.Judgement) (work : Principal → Prog Response) :
    Prog Response := do
  match ← judgement with
  | .error e => pure e.toResponse
  | .ok p => work p

def withParam {α : Type} (param : Option α) (work : α → Prog Response) : Prog Response :=
  match param with
  | none => pure (.refusal 400)
  | some a => work a

def serve (app : App) (known : Option Principal) (r : Request) : Endpoint → Prog Response
  | .live => pure (.json 200 (.object [("status", .string "alive")]))
  | .ready => do
    let readiness ← Health.checkReady app.health
    pure (.json 200 readiness.toJson)
  | .list => withCaller (app.caller known r) fun _ =>
    withParam (Query.filter? (r.query.getD "")) list
  | .create => withCaller (app.caller known r) fun p => create p r
  | .show id => withCaller (app.caller known r) fun _ =>
    withParam (pathId? id) fun id => do
      let result ← Service.get id
      pure (respond 200 Notification.toJson result)
  | .retryFailed => withCaller (app.administrator known r) fun p =>
    withParam (Query.limit? (r.query.getD "")) (retryFailed p)
  | .retryOne id => withCaller (app.administrator known r) fun p =>
    withParam (pathId? id) (retryOne p)
  | .retryStatus => withCaller (app.administrator known r) fun _ => do
    let result ← Recovery.retryStatus
    pure (respond 200 Recovery.Backlog.toJson result)
  | .stats => withCaller (app.administrator known r) fun _ => do
    let result ← Recovery.stats
    pure (respond 200 (fun (s, depth) => s.toJson depth) result)

def dispatch (app : App) (known : Option Principal) (resource : Resource) (r : Request) :
    Prog Response :=
  match resource.endpoint? r.method with
  | some endpoint => app.serve known r endpoint
  | none => pure .methodNotAllowed

def limited (app : App) (resource : Resource) (r : Request) : Prog Response := do
  let (key, known) ← app.bucketKey r
  match ← app.limiter.check key with
  | .error e => pure e.toResponse
  | .ok admission =>
    if admission.allowed then do
      let response ← app.dispatch known resource r
      pure { response with remaining := some admission.remaining }
    else do
      note ⟨.warn, "Rate limit exceeded", [("key", .text key), ("path", .text r.path)]⟩
      pure (Error.rateLimited admission.retryAfterSeconds).toResponse

/-- The answer to a request. The head of an answer is the answer without its body, and whatever the
answer to a method that the resource does not have, it names those that it has. -/
def handle (app : App) (r : Request) : Prog Response := do
  match Resource.ofPath? r.path with
  | none => pure .notFound
  | some resource =>
    let response ←
      if resource.isLimited r.method then app.limited resource r
      else app.dispatch none resource r
    let response :=
      if (resource.endpoint? r.method).isSome then response
      else { response with allow := some resource.allowed }
    pure (if r.method = "HEAD" then { response with body := .empty } else response)

end App
end Courier.Http
