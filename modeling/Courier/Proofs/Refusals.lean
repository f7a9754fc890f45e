import Courier.Proofs.Visits
import Courier.Settings

namespace Courier

open Prog

/-- The status that says that something cannot be reached. -/
abbrev Error.IsOutage (e : Error) : Prop := e.httpStatus = 503

namespace Service

variable {b₀ b : Backend} {told : Conversation} {records : Uuid → Option Notification}
  {n : Notification}

/-- Every error comes from something that cannot be reached. -/
def OnlyOutage {α : Type} (result : Option (Except Error α)) (_ : Conversation) (_ : Backend) :
    Prop :=
  ∀ e, result = some (.error e) → e.IsOutage

theorem markQueued_outage (h : b.Finds records) (stored : records n.id = some n)
    (pending : n.status = .pending) : (markQueued n.id).Falters told OnlyOutage b := by
  apply falters_get h
  rintro _ b h (rfl | rfl)
  · refine onward_pure fun e failed => ?_
    cases failed
    rfl
  · rw [stored]
    show Falters _ _ (if n.status = .pending then _ else _) _
    rw [if_pos pending]
    apply falters_now h
    intro time b h
    have current : records (n.queuedFrom time).id = some n := stored
    apply falters_update h current rfl
    · intro b h
      refine onward_pure fun e failed => ?_
      cases failed
      rfl
    · intro b h
      exact onward_note (onward_pure fun e failed => nomatch failed)

theorem enqueue_outage (h : b.Finds records) (stored : records n.id = some n)
    (pending : n.status = .pending) : (enqueue n).Falters told OnlyOutage b := by
  simp only [enqueue, pending]
  apply falters_now h
  intro time b h
  apply falters_push h
  rintro _ b h (rfl | rfl)
  · exact markQueued_outage h stored pending
  · refine onward_note (onward_pure fun e failed => ?_)
    cases failed
    rfl

/-- An error that does not come from something that cannot be reached comes before the first
write. -/
def OutageOrUntouched {α : Type} (b₀ : Backend) (result : Option (Except Error α))
    (_ : Conversation) (b : Backend) : Prop :=
  ∀ e, result = some (.error e) → e.IsOutage ∨ b₀.Untouched b

theorem looks_now {α : Type} {f : Instant → Prog α}
    {post : Option α → Conversation → Backend → Prop} (same : b₀.Untouched b)
    (rest : ∀ time b, b₀.Untouched b → (f time).Falters (told ++ [⟨.now, time⟩]) post b) :
    (ask .now f).Falters told post b := by
  apply falters_ask
  intro before c step meanwhile answered
  cases answered
  exact rest before.clock before (same.trans meanwhile)

theorem looks_freshId {α : Type} {f : Uuid → Prog α}
    {post : Option α → Conversation → Backend → Prop} (same : b₀.Untouched b)
    (rest : ∀ id b, b₀.Untouched b → (f id).Falters (told ++ [⟨.freshId, id⟩]) post b) :
    (ask .freshId f).Falters told post b := by
  apply falters_ask
  intro before c step meanwhile answered
  cases answered
  exact rest c.id before (same.trans meanwhile)

theorem create_refused (s : Submission) :
    (create s).Falters told (OutageOrUntouched b) b := by
  unfold create
  simp only []
  split
  · exact onward_pure fun e failed => .inr (.refl b)
  · split
    · exact onward_pure fun e failed => .inr (.refl b)
    · apply looks_now (.refl b)
      intro created _ same
      apply looks_freshId same
      intro id _ same
      apply falters_ask
      intro before c step meanwhile answered
      cases inserted : step.reply with
      | error e =>
          have unwritten := Backend.backend_of_insert_error answered inserted
          exact onward_pure fun _ _ => .inr (unwritten ▸ same.trans meanwhile)
      | ok _ =>
          -- the record is stored, and now only an outage can keep its job from being queued
          obtain ⟨absent, stored⟩ := Backend.answer_insert answered inserted
          apply onward_note
          let n := Notification.create id { s with recipient := Text.trimmed s.recipient } created
          have found : step.backend.store.find? n.id = some n := by
            rw [stored]
            exact (Store.find?_append absent n.id).trans (if_pos rfl)
          exact (enqueue_outage (fun _ => rfl) found rfl).mono fun _ _ _ outage e failed =>
            .inl (outage e failed)

/-- A reset that fails has written nothing; another one leaves a pending record. -/
inductive ResetWrites (b₀ : Backend) (id : Uuid) :
    Option (Except Error (Notification × Notification)) → Conversation → Backend → Prop
  | nothing {e : Error} {conv : Conversation} {b : Backend} (same : b₀.Untouched b) :
      ResetWrites b₀ id (some (.error e)) conv b
  | record {old pending : Notification} {conv : Conversation} {b : Backend} (own : pending.id = id)
      (stored : b.store.find? pending.id = some pending) (waits : pending.status = .pending) :
      ResetWrites b₀ id (some (.ok (old, pending))) conv b

theorem resetIn_writes (tries : Nat) (id : Uuid) (same : b₀.Untouched b) :
    (resetIn tries id).Falters told (ResetWrites b₀ id) b := by
  induction tries generalizing b told with
  | zero => exact onward_pure (.nothing same)
  | succ tries ih =>
      apply falters_ask
      intro _ c step first answered
      have looked := Backend.backend_of_look rfl answered
      have same : b₀.Untouched step.backend := looked ▸ same.trans first
      match found : step.reply with
      | .error e => exact onward_pure (.nothing same)
      | .ok none => exact onward_pure (.nothing same)
      | .ok (some current) =>
          obtain ⟨found, _⟩ := Backend.answer_get answered found
          show Falters _ _ (if current.status = .failed then _ else _) _
          split
          · apply looks_now same
            intro time b same
            apply falters_ask
            intro before c step meanwhile answered
            have same := same.trans meanwhile
            cases written : step.reply with
            | error e =>
                have unwritten := Backend.backend_of_update_error answered written
                have same : b₀.Untouched step.backend := unwritten ▸ same
                show Falters _ _ (if e.isConflict then _ else _) _
                split
                -- a conflict starts the next try, still with nothing written
                · exact ih same
                · exact onward_pure (.nothing same)
            | ok stored =>
                obtain ⟨old, present, _, rfl, after⟩ := Backend.answer_update answered written
                have own : current.id = id := Store.id_of_find? found
                refine onward_pure (.record own ?_ rfl)
                rw [after]
                exact Store.find?_put_self present
          · exact onward_pure (.nothing same)

theorem resetFailed_refused (id : Uuid) :
    (resetFailed id).Falters told (OutageOrUntouched b) b := by
  apply (resetIn_writes writeTries id (.refl b)).bind
  · intro conv b writes
    cases writes
  · intro result conv after writes
    cases writes with
    | nothing same => exact onward_pure fun _ _ => .inr same
    | @record old pending _ _ own stored waits =>
        apply (enqueue_outage (fun _ => rfl) stored waits).bind
        · exact fun _ _ _ e missing => nomatch missing
        · intro result conv after outage
          cases result with
          | ok queued => exact onward_pure fun e failed => nomatch failed
          | error e =>
              have broken (conv : Conversation) (after : Backend) :
                  OutageOrUntouched b (some (.error e : Except Error Notification)) conv after := by
                intro e' failed
                cases failed
                exact .inl (outage e rfl)
              show Falters _ _ (if e.isQueueUnavailable then _ else _) _
              split
              -- whether the record can be put back or not, the answer is the same error
              · apply falters_ask
                intro _ _ _ _ _
                apply falters_ask
                intro _ _ step _ _
                cases step.reply with
                | ok stored => exact onward_pure (broken _ _)
                | error lost => exact onward_note (onward_pure (broken _ _))
              · exact onward_pure (broken _ _)

end Service

namespace Recovery

variable {b : Backend} {told : Conversation}

theorem retryOne_refused (id : Uuid) :
    (retryOne id).Falters told (Service.OutageOrUntouched b) b := by
  apply (Service.resetFailed_refused id).bind
  · exact fun _ _ _ e missing => nomatch missing
  · intro result conv after refused
    cases result with
    | ok n => exact onward_note (onward_pure fun e failed => nomatch failed)
    | error e =>
        refine onward_pure fun e' failed => ?_
        cases failed
        exact refused e rfl

theorem retryFailed_refused (limit : Option Nat) :
    (retryFailed limit).Falters told (Service.OutageOrUntouched b) b := by
  apply falters_ask
  intro before c step meanwhile answered
  have looked := Backend.backend_of_look rfl answered
  cases step.reply with
  | error e => exact onward_pure fun _ _ => .inr (looked ▸ meanwhile)
  | ok failed =>
      have anything : (resetAll (batchOf limit failed) 0 0).Falters
          (told ++ [⟨.scan (.withStatus .failed), .ok failed⟩]) (fun _ _ _ => True) step.backend :=
        meets_anything _ _
      apply anything.bind (fun _ _ _ e missing => nomatch missing)
      intro (queued, errors) conv after _
      exact onward_note (onward_pure fun e failed => nomatch failed)

end Recovery

namespace Http

/-- The request is refused: the status is one of those that blame the client. -/
def Response.IsRefusal (response : Response) : Prop := 400 ≤ response.status ∧ response.status < 500

theorem status_toResponse (e : Error) : e.toResponse.status = e.httpStatus := by
  cases e <;> rfl

/-- A refusal leaves the store and the queue as they were. -/
def Harmless (p : Prog Response) : Prop :=
  ∀ b conv response b', p.Ends b conv (some response) b' → response.IsRefusal → b.Untouched b'

variable {α : Type} {p : Prog Response}

theorem harmless_of_looks (looks : p.Only fun q => q.isLook = true) : Harmless p :=
  fun _ _ _ _ run _ => run.untouched looks

theorem harmless_pure (response : Response) : Harmless (pure response) :=
  harmless_of_looks trivial

theorem Harmless.after {p : Prog α} {f : α → Prog Response}
    (looks : p.Only fun q => q.isLook = true) (h : ∀ a, Harmless (f a)) : Harmless (p >>= f) := by
  intro b conv response b' run refused
  rcases run.of_bind with ⟨missing, _⟩ | ⟨a, _, _, between, _, first, rest⟩
  · cases missing
  · exact (first.untouched looks).trans (h a _ _ _ _ rest refused)

theorem Harmless.map {g : Response → Response} (h : Harmless p)
    (same : ∀ response, (g response).status = response.status) :
    Harmless (p >>= fun response => pure (g response)) := by
  intro b conv response b' run refused
  rcases run.of_bind with ⟨missing, _⟩ | ⟨before, _, _, between, _, first, rest⟩
  · cases missing
  · cases rest
    unfold Response.IsRefusal at refused
    rw [same] at refused
    exact h _ _ _ _ first refused

/-- Work of the service is answered with its error, or else with an answer that is no refusal. -/
theorem Harmless.of_work {work : Prog (Except Error α)} {f : Except Error α → Prog Response}
    (works : work.Works) (fails : ∀ b, work.Falters [] (Service.OutageOrUntouched b) b)
    (failed : ∀ e, f (.error e) = pure e.toResponse)
    (done : ∀ a b conv response b', (f (.ok a)).Ends b conv (some response) b' →
      response.status < 400) : Harmless (work >>= f) := by
  intro b conv response b' run ⟨least, most⟩
  rcases run.of_bind with ⟨missing, _⟩ | ⟨result, first, _, between, _, worked, rest⟩
  · cases missing
  · cases result with
    | ok a => exact absurd (done a _ _ _ _ rest) (by omega)
    | error e =>
        have home := works.mono fun _ => Request.not_isForeign_of_isWork
        have came : e.IsOutage ∨ b.Untouched between := worked.meets home (fails b) e rfl
        rw [failed] at rest
        cases rest
        rcases came with outage | untouched
        · rw [status_toResponse, outage] at most
          omega
        · exact untouched

namespace App

variable {app : App} {r : Request}

/-- Judging callers writes nothing. -/
abbrev JudgesByLooking (app : App) : Prop :=
  ∀ credential, (app.validate credential).Only fun q => q.isLook = true

theorem harmless_create (p : Principal) (r : Request) : Harmless (create p r) := by
  unfold create
  split
  · exact harmless_pure _
  · split
    · exact harmless_pure _
    · exact harmless_pure _
    · rename_i submission _
      refine Harmless.of_work (Service.create_works submission)
        (fun b => Service.create_refused submission) (fun _ => rfl) ?_
      intro n b conv response b' run
      cases run with
      | log onward =>
          cases onward
          exact (by decide : 201 < 400)

theorem harmless_retryFailed (p : Principal) (limit : Option Nat) :
    Harmless (retryFailed p limit) := by
  unfold retryFailed
  split
  · exact harmless_pure _
  · refine Harmless.after (p := note _) trivial fun _ => ?_
    refine Harmless.of_work (Recovery.retryFailed_works limit)
      (fun b => Recovery.retryFailed_refused limit) (fun _ => rfl) ?_
    intro summary b conv response b' run
    cases run
    exact (by decide : 200 < 400)

theorem harmless_retryOne (p : Principal) (id : Uuid) : Harmless (retryOne p id) := by
  refine Harmless.after (p := note _) trivial fun _ => ?_
  refine Harmless.of_work (Recovery.retryOne_works id)
    (fun b => Recovery.retryOne_refused id) (fun _ => rfl) ?_
  intro n b conv response b' run
  cases run
  exact (by decide : 200 < 400)

theorem harmless_withCaller {judgement : Prog Auth.Judgement} {work : Principal → Prog Response}
    (looks : judgement.Only fun q => q.isLook = true) (h : ∀ p, Harmless (work p)) :
    Harmless (withCaller judgement work) := by
  apply Harmless.after looks
  intro judgement
  cases judgement with
  | error e => exact harmless_pure _
  | ok p => exact h p

theorem harmless_withParam {α : Type} {param : Option α} {work : α → Prog Response}
    (h : ∀ a, Harmless (work a)) : Harmless (withParam param work) := by
  cases param with
  | none => exact harmless_pure _
  | some a => exact h a

theorem harmless_serve (judging : app.JudgesByLooking) (known : Option Principal) (r : Request)
    (endpoint : Endpoint) : Harmless (app.serve known r endpoint) := by
  have user := caller_only judging known r
  have admin := administrator_only judging known r
  cases endpoint with
  | live => exact harmless_pure _
  | ready =>
      have looks : (Health.checkReady app.health).Only fun q => q.isLook = true :=
        (Health.checkReady_only app.health).mono fun _ => Request.isLook_of_isCheck
      exact harmless_of_looks (looks.bind fun _ => trivial)
  | list =>
      exact harmless_withCaller user fun _ => harmless_withParam fun filter =>
        harmless_of_looks (list_only (fun _ => rfl) filter)
  | create => exact harmless_withCaller user fun p => harmless_create p r
  | «show» id =>
      refine harmless_withCaller user fun _ => harmless_withParam fun id => harmless_of_looks ?_
      refine Only.bind ⟨rfl, fun reply => ?_⟩ fun _ => trivial
      match reply with
      | .error _ | .ok none | .ok (some _) => trivial
  | retryFailed =>
      exact harmless_withCaller admin fun p => harmless_withParam (harmless_retryFailed p)
  | retryOne id =>
      exact harmless_withCaller admin fun p => harmless_withParam (harmless_retryOne p)
  | retryStatus =>
      exact harmless_withCaller admin fun _ =>
        harmless_of_looks ((Recovery.retryStatus_only fun _ => rfl).bind fun _ => trivial)
  | stats =>
      have looks : Recovery.stats.Only fun q => q.isLook = true :=
        Recovery.stats_only (fun _ => rfl) rfl
      exact harmless_withCaller admin fun _ => harmless_of_looks (looks.bind fun _ => trivial)

theorem harmless_dispatch (judging : app.JudgesByLooking) (known : Option Principal)
    (resource : Resource) (r : Request) : Harmless (app.dispatch known resource r) := by
  unfold dispatch
  split
  · exact harmless_serve judging known r _
  · exact harmless_pure _

theorem check_looks (l : RateLimit.Limiter Float) (key : String) :
    (l.check key).Only fun q => q.isLook = true :=
  ⟨rfl, fun _ => ⟨rfl, fun _ => only_orAbort fun _ => only_noteAll trivial⟩⟩

/-- Whatever a request is refused for, its refusal leaves the store and the queue as they were. -/
theorem harmless_handle (judging : app.JudgesByLooking) (r : Request) :
    Harmless (app.handle r) := by
  cases found : Resource.ofPath? r.path with
  | none =>
      refine harmless_of_looks ?_
      unfold handle
      rw [found]
      trivial
  | some resource =>
      rw [handle_of_found app found]
      refine Harmless.map ?_ ?_
      · split
        · apply Harmless.after (bucketKey_only judging r)
          intro ⟨key, known⟩
          apply Harmless.after (check_looks app.limiter key)
          intro result
          cases result with
          | error e => exact harmless_pure _
          | ok admission =>
              show Harmless (if admission.allowed then _ else _)
              split
              · exact (harmless_dispatch judging known resource r).map fun _ => rfl
              · exact harmless_of_looks trivial
        · exact harmless_dispatch judging none resource r
      · intro response
        split <;> split <;> rfl

end App
end Http
end Courier
