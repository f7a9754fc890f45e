import Courier.Http.Handler
import Courier.Proofs.Finishing

namespace Courier

open Prog

/-- A request that the work of the service and of administrators may come to. -/
def Request.isWork (r : Request) : Bool :=
  r.isInward ||
    match r with
    | .freshId | .insert _ | .scan _ | .depth => true
    | _ => false

/-- A request that a health check may come to. -/
def Request.isCheck : Request → Bool
  | .remembered _ | .probe _ _ | .settle _ _ => true
  | _ => false

/-- The program does such work, and nothing else. -/
abbrev Prog.Works {α : Type} (p : Prog α) : Prop := p.Only fun r => r.isWork = true

theorem Prog.Only.works {α : Type} {p : Prog α} (inward : Service.Inward p) : p.Works :=
  inward.mono fun _ h => Bool.or_eq_true_iff.mpr (.inl h)

theorem Service.create_works (s : Submission) : (Service.create s).Works := by
  unfold Service.create
  simp only []
  split
  · trivial
  · split
    · trivial
    · refine ⟨rfl, fun time => ⟨rfl, fun id => ⟨rfl, fun reply => ?_⟩⟩⟩
      cases reply with
      | error e => trivial
      | ok stored =>
          let n := Notification.create id { s with recipient := Text.trimmed s.recipient } time
          have enqueued : (Service.enqueue n).Works := (Service.enqueue_inward n).works
          exact enqueued

theorem Health.checkReady_only (config : Config) :
    (checkReady config).Only fun r => r.isCheck = true := by
  have checks (d : Dependency) : (check config d).Only fun r => r.isCheck = true := by
    refine ⟨rfl, fun reply => ?_⟩
    cases reply with
    | some h => trivial
    | none => exact ⟨rfl, fun _ => ⟨rfl, fun _ => only_noteAll trivial⟩⟩
  exact (checks .database).bind fun _ => (checks .queue).bind fun _ => trivial

namespace Recovery

variable {kind : Request → Prop}

theorem foldStore_only {σ : Type} (scans : ∀ filter, kind (.scan filter))
    (step : σ → Notification → σ) (start : σ) : (foldStore step start).Only kind := by
  unfold foldStore
  generalize Width.limit64 = pages
  generalize 0 = offset
  induction pages generalizing offset start with
  | zero => trivial
  | succ pages ih =>
      refine ⟨scans _, fun reply => ?_⟩
      cases reply with
      | error e => trivial
      | ok page =>
          show Only kind (if page.length < pageSize then _ else _)
          split
          · trivial
          · exact ih _ _

theorem retryStatus_only (scans : ∀ filter, kind (.scan filter)) : retryStatus.Only kind := by
  apply (foldStore_only scans _ _).bind
  intro result
  cases result <;> trivial

theorem stats_only (scans : ∀ filter, kind (.scan filter)) (depth : kind .depth) :
    stats.Only kind := by
  apply (foldStore_only scans _ _).bind
  intro result
  cases result with
  | error e => trivial
  | ok s =>
      refine ⟨depth, fun reply => ?_⟩
      cases reply <;> trivial

theorem retryFailed_works (limit : Option Nat) : (retryFailed limit).Works := by
  refine ⟨rfl, fun reply => ?_⟩
  cases reply with
  | error e => trivial
  | ok failed => exact (resetAll_inward (batchOf limit failed) 0 0).works.bind fun _ => trivial

theorem retryOne_works (id : Uuid) : (retryOne id).Works := by
  apply (Service.resetFailed_inward id).works.bind
  intro result
  cases result <;> trivial

end Recovery

namespace Http.Request

variable {r : Request}

theorem bearerToken?_eq (r : Request) : r.bearerToken? = r.bearerText?.filter (· != "") := by
  unfold bearerToken? bearerText? Http.bearerToken?
  cases r.header? "authorization" <;> rfl

theorem bearerToken?_of_text {credential : String} (given : r.bearerText? = some credential)
    (filled : credential ≠ "") : r.bearerToken? = some credential := by
  rw [bearerToken?_eq, given, Option.filter_some_pos (by simp [filled])]

end Http.Request

namespace Http.App

variable {kind : Courier.Request → Prop} {app : App} {key : String} {work : Prog Response}
  {resource : Resource} {r : Request}

theorem bucketKey_only (judging : ∀ credential, (app.validate credential).Only kind) (r : Request) :
    (app.bucketKey r).Only kind := by
  unfold bucketKey
  split
  · apply (judging _).bind
    intro judgement
    cases judgement <;> trivial
  · trivial

theorem caller_only (judging : ∀ credential, (app.validate credential).Only kind)
    (known : Option Principal) (r : Request) : (app.caller known r).Only kind := by
  unfold caller
  split
  · trivial
  · split
    · exact judging _
    · trivial

theorem administrator_only (judging : ∀ credential, (app.validate credential).Only kind)
    (known : Option Principal) (r : Request) : (app.administrator known r).Only kind := by
  apply (caller_only judging known r).bind
  intro judgement
  cases judgement with
  | error e => trivial
  | ok p =>
      show Only kind (if p.isAdmin then _ else _)
      split <;> trivial

theorem withCaller_only {judgement : Prog Auth.Judgement} {work : Principal → Prog Response}
    (judging : judgement.Only kind) (h : ∀ p, (work p).Only kind) :
    (withCaller judgement work).Only kind := by
  apply judging.bind
  intro judgement
  cases judgement with
  | error e => trivial
  | ok p => exact h p

theorem withParam_only {α : Type} {param : Option α} {work : α → Prog Response}
    (h : ∀ a, (work a).Only kind) : (withParam param work).Only kind := by
  cases param with
  | none => trivial
  | some a => exact h a

theorem list_only (scans : ∀ filter, kind (.scan filter)) (filter : Filter) :
    (list filter).Only kind := by
  unfold list
  simp only []
  split
  · trivial
  · exact ⟨scans _, fun _ => trivial⟩

theorem create_works (p : Principal) (r : Request) : (create p r).Works := by
  unfold create
  split
  · trivial
  · split
    · trivial
    · trivial
    · apply (Service.create_works _).bind
      intro result
      cases result <;> trivial

/-- An endpoint makes no requests but those of its work, of health checks, and of the judgement on
the caller. -/
theorem serve_only (works : ∀ q : Courier.Request, q.isWork = true → kind q)
    (checks : ∀ q : Courier.Request, q.isCheck = true → kind q)
    (judging : ∀ credential, (app.validate credential).Only kind) (known : Option Principal)
    (r : Request) (endpoint : Endpoint) : (app.serve known r endpoint).Only kind := by
  have user := caller_only judging known r
  have admin := administrator_only judging known r
  cases endpoint with
  | live => trivial
  | ready => exact ((Health.checkReady_only app.health).mono checks).bind fun _ => trivial
  | list => exact withCaller_only user fun _ => withParam_only (list_only fun _ => works _ rfl)
  | create => exact withCaller_only user fun p => (create_works p r).mono works
  | «show» id =>
      exact withCaller_only user fun _ => withParam_only fun id =>
        ((Service.get_inward id).works.mono works).bind fun _ => trivial
  | retryFailed =>
      refine withCaller_only admin fun p => withParam_only fun limit => ?_
      unfold retryFailed
      split
      · trivial
      · exact ((Recovery.retryFailed_works limit).mono works).bind fun _ => trivial
  | retryOne id =>
      exact withCaller_only admin fun p => withParam_only fun id =>
        ((Recovery.retryOne_works id).mono works).bind fun _ => trivial
  | retryStatus =>
      exact withCaller_only admin fun _ =>
        (Recovery.retryStatus_only fun _ => works _ rfl).bind fun _ => trivial
  | stats =>
      exact withCaller_only admin fun _ =>
        (Recovery.stats_only (fun _ => works _ rfl) (works _ rfl)).bind fun _ => trivial

theorem dispatch_only (works : ∀ q : Courier.Request, q.isWork = true → kind q)
    (checks : ∀ q : Courier.Request, q.isCheck = true → kind q)
    (judging : ∀ credential, (app.validate credential).Only kind) (known : Option Principal)
    (resource : Resource) (r : Request) : (app.dispatch known resource r).Only kind := by
  unfold dispatch
  split
  · exact serve_only works checks judging known r _
  · trivial

/-- The request takes nothing from a bucket. -/
abbrev TakesNothing (q : Courier.Request) : Prop := ∀ config key time, q ≠ .acquire config key time

theorem takesNothing_of_isWork (q : Courier.Request) (work : q.isWork = true) :
    TakesNothing q := by
  rintro _ _ _ rfl
  cases work

theorem takesNothing_of_isCheck (q : Courier.Request) (check : q.isCheck = true) :
    TakesNothing q := by
  rintro _ _ _ rfl
  cases check

/-- What follows the decision of the bucket of a key: the work is done if a token was granted. -/
def ruled (key : String) (r : Request) (work : Prog Response) :
    Except Error RateLimit.Admission → Prog Response
  | .error e => pure e.toResponse
  | .ok admission =>
    if admission.allowed then do
      let response ← work
      pure { response with remaining := some admission.remaining }
    else do
      note ⟨.warn, "Rate limit exceeded", [("key", .text key), ("path", .text r.path)]⟩
      pure (Error.rateLimited admission.retryAfterSeconds).toResponse

def guarded (app : App) (key : String) (r : Request) (work : Prog Response) : Prog Response :=
  app.limiter.check key >>= ruled key r work

theorem limited_eq (app : App) (resource : Resource) (r : Request) :
    app.limited resource r =
      app.bucketKey r >>= fun (key, known) =>
        app.guarded key r (app.dispatch known resource r) := rfl

theorem ruled_only (h : work.Only kind) (result : Except Error RateLimit.Admission) :
    (ruled key r work result).Only kind := by
  cases result with
  | error e => trivial
  | ok admission =>
      show Only kind (if admission.allowed then _ else _)
      split
      · exact h.bind fun _ => trivial
      · trivial

/-- The program reads the clock and asks that bucket for a token. After that it makes only requests
of the kind. -/
def Spends (config : RateLimit.Config Float) (key : String) (kind : Courier.Request → Prop)
    (p : Prog Response) : Prop :=
  ∃ rest : Instant → Except Error (RateLimit.Grant Float) → Prog Response,
    p = .ask .now (fun time => .ask (.acquire config key time) (rest time)) ∧
      ∀ time grant, (rest time grant).Only kind

theorem Spends.bind {config : RateLimit.Config Float} {p : Prog Response}
    {f : Response → Prog Response} (h : Spends config key kind p) (more : ∀ a, (f a).Only kind) :
    Spends config key kind (p >>= f) := by
  obtain ⟨rest, rfl, only⟩ := h
  exact ⟨_, rfl, fun time grant => (only time grant).bind more⟩

theorem guarded_spends (h : work.Only kind) :
    Spends app.limiter.config key kind (app.guarded key r work) := by
  refine ⟨_, rfl, fun time grant => ?_⟩
  have decides : (do
      let result ← orAbort (app.limiter.admission? grant)
      noteAll (RateLimit.Limiter.events key grant result)
      pure result : Prog _).Only kind := only_orAbort fun _ => only_noteAll trivial
  exact decides.bind (ruled_only h)

theorem guarded_only
    (acquires : ∀ time, kind (.acquire app.limiter.config key time)) (clock : kind .now)
    (h : work.Only kind) : (app.guarded key r work).Only kind := by
  have spends : Spends app.limiter.config key kind (app.guarded key r work) := guarded_spends h
  obtain ⟨rest, asks, only⟩ := spends
  rw [asks]
  exact ⟨clock, fun time => ⟨acquires time, only time⟩⟩

def dress (resource : Resource) (r : Request) (response : Response) : Prog Response :=
  let response :=
    if (resource.endpoint? r.method).isSome then response
    else { response with allow := some resource.allowed }
  pure (if r.method = "HEAD" then { response with body := .empty } else response)

theorem handle_of_found (app : App) (found : Resource.ofPath? r.path = some resource) :
    app.handle r =
      (if resource.isLimited r.method then app.limited resource r
        else app.dispatch none resource r) >>= dress resource r := by
  unfold handle
  rw [found]
  simp only []
  split <;> rfl

/-- A web request comes to no requests but those of the work, of health checks, of the judgement on
the caller, and for a token. -/
theorem handle_only (works : ∀ q : Courier.Request, q.isWork = true → kind q)
    (checks : ∀ q : Courier.Request, q.isCheck = true → kind q)
    (judging : ∀ credential, (app.validate credential).Only kind)
    (acquires : ∀ config key time, kind (.acquire config key time)) (r : Request) :
    (app.handle r).Only kind := by
  have dispatched := dispatch_only works checks judging
  cases found : Resource.ofPath? r.path with
  | none =>
      unfold handle
      rw [found]
      trivial
  | some resource =>
      rw [handle_of_found app found]
      refine Only.bind ?_ fun _ => trivial
      split
      · apply (bucketKey_only judging r).bind
        intro (key, known)
        exact guarded_only (acquires _ key) (works _ rfl) (dispatched known resource r)
      · exact dispatched none resource r

end Http.App
end Courier
