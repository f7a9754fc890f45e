import Courier.Proofs.LateReports
import Courier.Proofs.Stages
import Courier.Proofs.Succession

/-!
Resets that the queue refuses. A reset that finds no queue puts the failed record back under the
version of its own reset, so that it either replaces that very record or is refused, whoever else
writes in between.
-/
namespace Courier

open Prog

def Request.isPush : Request → Bool
  | .enqueue _ => true
  | _ => false

namespace Service

/-- The failed record as it is put back over the pending one. -/
def putBackAt (failed pending : Notification) (time : Instant) : Notification :=
  { failed with version := pending.version, updatedAt := time }

/-- What is left of a reset when its job was refused. -/
def putBack (id : Uuid) (failed pending : Notification) (e : Error) :
    Prog (Except Error Notification) := do
  let time ← now
  match ← update (putBackAt failed pending time) with
  | .ok _ => pure (.error e)
  | .error lost =>
    note ⟨.error, "Could not restore FAILED status after queue error",
      [idField id, ("error", .text lost.display)]⟩
    pure (.error e)

theorem putBack_endsWithin (id : Uuid) (failed pending : Notification) (e : Error) :
    (putBack id failed pending e).EndsWithin (.error e) 2 := by
  refine ⟨rfl, fun time => ⟨rfl, fun reply => ?_⟩⟩
  cases reply <;> rfl

/-- A reset is about to push: the last that it stored is its pending record, in the place of the
failed one that it had read. -/
inductive Pushing (id : Uuid) (told : Conversation) (job : Job)
    (next : Except Error Unit → Prog (Except Error Notification)) : Prop
  | intro {earlier : Conversation} {failed pending : Notification} {time read : Instant}
      (found : ⟨.get id, .ok (some failed)⟩ ∈ earlier) (wasFailed : failed.status = .failed)
      (spoken : told = earlier ++ [⟨.update (failed.resetAt time), .ok pending⟩, ⟨.now, read⟩])
      (refused : ∀ e, (next (.error e)).quiet =
        (putBack id failed pending (.leftPending pending.id e)).quiet)

def AtPush (id : Uuid) (told : Conversation) :
    (r : Request) → (r.Reply → Prog (Except Error Notification)) → Prop
  | .enqueue job, next => Pushing id told job next
  | _, _ => True

theorem get_noPush (id : Uuid) : (get id).Only fun r => r.isPush = false := by
  refine ⟨rfl, ?_⟩
  intro reply
  match reply with
  | .error _ | .ok none | .ok (some _) => trivial

theorem markQueuedIn_noPush (tries : Nat) (id : Uuid) :
    (markQueuedIn tries id).Only fun r => r.isPush = false := by
  induction tries with
  | zero => trivial
  | succ tries ih =>
      apply (get_noPush id).bind
      intro result
      cases result with
      | error e => trivial
      | ok current =>
          show Only _ (if current.status = .pending then _ else _)
          by_cases pending : current.status = .pending
          · rw [if_pos pending]
            refine ⟨rfl, fun time => ⟨rfl, ?_⟩⟩
            intro reply
            match reply with
            | .ok stored => trivial
            | .error e =>
                show Only _ (if e.isConflict = true then _ else _)
                by_cases conflict : e.isConflict = true
                · rw [if_pos conflict]
                  exact ih
                · rw [if_neg conflict]
                  trivial
          · rw [if_neg pending]
            trivial

theorem atPush_of_noPush {id : Uuid} {told : Conversation} {r : Request}
    {next : r.Reply → Prog (Except Error Notification)} (h : r.isPush = false) :
    AtPush id told r next := by
  cases r with
  | enqueue job => cases h
  | _ => trivial

/-- What was said when a reset has stored its pending record. -/
def HasReset (id : Uuid) (told : Conversation) (failed pending : Notification) : Prop :=
  ∃ earlier time, told = earlier ++ [⟨.update (failed.resetAt time), .ok pending⟩] ∧
    failed.status = .failed ∧ ⟨.get id, .ok (some failed)⟩ ∈ earlier

theorem resetIn_stages (tries : Nat) (id : Uuid) (told : Conversation) :
    (resetIn tries id).Stages (fun _ r _ => r.isPush = false)
      (fun told result => ∀ failed pending, result = .ok (failed, pending) →
        HasReset id told failed pending) told := by
  induction tries generalizing told with
  | zero => intro _ _ same; cases same
  | succ tries ih =>
      refine ⟨rfl, ?_⟩
      intro reply
      match reply with
      | .error e => intro _ _ same; cases same
      | .ok none => intro _ _ same; cases same
      | .ok (some current) =>
          show Stages _ _ (if current.status = .failed then _ else _) _
          by_cases failed : current.status = .failed
          · rw [if_pos failed]
            refine ⟨rfl, fun time => ⟨rfl, ?_⟩⟩
            intro reply
            match reply with
            | .ok stored =>
                rintro _ _ ⟨⟩
                exact ⟨_, time, rfl, failed, by simp⟩
            | .error e =>
                show Stages _ _ (if e.isConflict = true then _ else _) _
                by_cases conflict : e.isConflict = true
                · rw [if_pos conflict]
                  exact ih _
                · rw [if_neg conflict]
                  intro _ _ same
                  cases same
          · rw [if_neg failed]
            intro _ _ same
            cases same

theorem resetFailed_stages (id : Uuid) :
    (resetFailed id).Stages (AtPush id) (fun _ _ => True) [] := by
  unfold resetFailed
  refine Stages.bind ((resetIn_stages writeTries id []).mono fun _ _ _ => atPush_of_noPush) ?_
  intro told result stored
  match result with
  | .error e => trivial
  | .ok (failed, pending) =>
      obtain ⟨earlier, time, spoken, wasFailed, found⟩ := stored failed pending rfl
      show Stages _ _ (enqueue pending >>= _) told
      unfold enqueue
      cases pending.status with
      | queued | sent | failed => trivial
      | pending =>
          refine ⟨trivial, fun read => ?_⟩
          have all : told ++ [⟨.now, read⟩] =
              earlier ++ [⟨.update (failed.resetAt time), .ok pending⟩, ⟨.now, read⟩] := by
            simp [spoken]
          refine ⟨.intro found wasFailed all fun e => rfl, fun reply => ?_⟩
          cases reply with
          | error e =>
              refine ⟨trivial, fun time => ⟨trivial, fun reply => ?_⟩⟩
              cases reply <;> trivial
          | ok _ =>
              refine Stages.bind ((markQueuedIn_noPush writeTries pending.id).stages
                fun _ _ _ noPush => atPush_of_noPush noPush) fun told result _ => ?_
              match result with
              | .ok n => trivial
              | .error e =>
                  show Stages _ _ (if e.isQueueUnavailable = true then _ else _) told
                  by_cases refused : e.isQueueUnavailable = true
                  · rw [if_pos refused]
                    refine ⟨trivial, fun time => ⟨trivial, fun reply => ?_⟩⟩
                    cases reply <;> trivial
                  · rw [if_neg refused]
                    trivial

end Service

theorem Backend.refused_of_answer {b : Backend} {c : Choice} {n : Notification}
    {step : Backend.Step (Except Error Notification)} {lost : Error}
    (answered : b.answer c (.update n) = some step) (refused : step.reply = .error lost) :
    b.store.update n = .error lost := by
  cases answered
  simp only [Backend.update] at refused
  split at refused
  · cases refused
  · rename_i e lost
    cases refused
    exact lost

namespace Pipeline

open Service (putBack putBackAt)

def storeStays (_ : Pipeline) : Move → Bool
  | .setAvailable store _ => store
  | _ => true

variable {d : Deployment} {s next t : Pipeline} {m : Move} {i k : Nat} {id : Uuid}
  {failed pending : Notification} {e : Error} {told : Conversation}

theorem Step.storeUp (h : Step d s m next) (stays : storeStays s m = true)
    (up : s.backend.store.available = true) : next.backend.store.available = true := by
  cases h with
  | advance asks answered =>
      rcases Backend.store_of_answer answered with same | ⟨n, inserted⟩ | ⟨n, stored, updated⟩
      · exact same ▸ up
      · obtain ⟨_, after⟩ := Store.insert_eq_ok inserted
        simpa [after] using up
      · obtain ⟨_, _, _, _, after⟩ := Store.update_eq_ok updated
        simpa [after, Store.put] using up
  | setAvailable => exact stays
  | _ => exact up

/-- How far a call has come with putting its record back, after all that it had said when the queue
refused its job. -/
inductive Unwinding (s : Pipeline) (i k : Nat) (id : Uuid) (failed pending : Notification)
    (e : Error) (told : Conversation) : Prop
  | refused (asks : s.calls[i]? = some ⟨.resetFailed id, (putBack id failed pending e).quiet⟩)
      (spoken : s.past.conversation i = told)
  | dated {time : Instant} {next : Except Error Notification → Prog (Except Error Notification)}
      (asks : s.calls[i]? =
        some ⟨.resetFailed id, .ask (.update (putBackAt failed pending time)) next⟩)
      (ends : ∀ reply, (next reply).quiet = .done (.error e))
      (spoken : s.past.conversation i = told ++ [⟨.now, time⟩])
  | restored {time : Instant} {stored : Notification}
      (ended : s.calls[i]? = some ⟨.resetFailed id, .done (.error e)⟩)
      (spoken : s.past.conversation i =
        told ++ [⟨.now, time⟩, ⟨.update (putBackAt failed pending time), .ok stored⟩])
  | overtaken {time : Instant} {lost : Error}
      (ended : s.calls[i]? = some ⟨.resetFailed id, .done (.error e)⟩)
      (spoken : s.past.conversation i =
        told ++ [⟨.now, time⟩, ⟨.update (putBackAt failed pending time), .error lost⟩])
      (later : k + 2 < (s.past.versions id).length)

/-- With the store up, a write over a version that was stored is refused only if another one was
stored after it. -/
theorem Keeping.later_of_refused (keeping : s.Keeping (contract d.policy))
    (up : s.backend.store.available = true) {n : Notification} {lost : Error}
    (place : (s.past.versions n.id)[k]? = some pending) (same : n.version = pending.version)
    (refused : s.backend.store.update n = .error lost) :
    k + 1 < (s.past.versions n.id).length := by
  obtain ⟨bound, _⟩ := List.getElem?_eq_some_iff.mp place
  by_contra last
  have last : (s.past.versions n.id).length - 1 = k := by omega
  have found : s.backend.store.find? n.id = some pending := by
    rw [keeping.describes.found, Past.latest, List.getLast?_eq_getElem?, last, place]
  rw [Store.update_of_current up found same.symm] at refused
  cases refused

theorem Unwinding.step (h : s.Unwinding i k id failed pending e told)
    (keeping : s.Keeping (contract d.policy)) (up : s.backend.store.available = true)
    (own : failed.id = id) (place : (s.past.versions id)[k + 1]? = some pending)
    (moved : Step d s m next) : next.Unwinding i k id failed pending e told := by
  by_cases mine : ∃ c, m = .advance i c
  · obtain ⟨c, rfl⟩ := mine
    cases moved with
    | @advance _ _ op r k step asked answered =>
        obtain ⟨bound, _⟩ := List.getElem?_eq_some_iff.mp asked
        cases h with
        | refused asks spoken =>
            cases asked.symm.trans asks
            cases answered
            refine .dated (List.getElem?_set_self bound) ?_ (by rw [← spoken]; simp)
            intro reply
            cases reply <;> rfl
        | @dated time rest asks ends spoken =>
            cases asked.symm.trans asks
            have ended : (s.calls.set i ⟨.resetFailed id, (rest step.reply).quiet⟩)[i]? =
                some ⟨.resetFailed id, .done (.error e)⟩ := by
              rw [List.getElem?_set_self bound, ends]
            have all : Past.conversation
                (s.past ++ [.answered i (.update (putBackAt failed pending time)) step.reply]) i =
                  told ++ [⟨.now, time⟩,
                    ⟨.update (putBackAt failed pending time), step.reply⟩] := by
              simp [spoken]
            match reply : step.reply with
            | .ok stored =>
                rw [reply] at ended all
                exact .restored ended all
            | .error lost =>
                rw [reply] at ended all
                refine .overtaken ended all ?_
                rw [Past.versions_snoc_of_none rfl]
                subst own
                exact keeping.later_of_refused (n := putBackAt failed pending time) up place rfl
                  (Backend.refused_of_answer answered reply)
        | restored ended spoken => cases asked.symm.trans ended
        | overtaken ended spoken later => cases asked.symm.trans ended
  · have other : ∀ c, m ≠ .advance i c := fun c same => mine ⟨c, same⟩
    cases h with
    | refused asks spoken =>
        obtain ⟨asks, same⟩ := moved.aside other asks
        exact .refused asks (same.trans spoken)
    | dated asks ends spoken =>
        obtain ⟨asks, same⟩ := moved.aside other asks
        exact .dated asks ends (same.trans spoken)
    | restored ended spoken =>
        obtain ⟨ended, same⟩ := moved.aside other ended
        exact .restored ended (same.trans spoken)
    | overtaken ended spoken later =>
        obtain ⟨ended, same⟩ := moved.aside other ended
        obtain ⟨more, grown⟩ := moved.grows
        refine .overtaken ended (same.trans spoken) ?_
        rw [← grown, Past.versions_append, List.length_append]
        omega

/-- A call whose queue has refused its job goes on to put the record back, whatever else happens, as
long as the store stays. -/
theorem Unwinding.run (h : s.Unwinding i k id failed pending e told) {moves : List Move}
    {clock : Instant} (reached : Reachable d (fun s m => anything s m) clock s)
    (up : s.backend.store.available = true) (own : failed.id = id)
    (place : (s.past.versions id)[k + 1]? = some pending)
    (run : s.run? d storeStays moves = some t) :
    t.Unwinding i k id failed pending e told ∧ Reachable d (fun s m => anything s m) clock t ∧
      s.past <+: t.past := by
  induction moves generalizing s with
  | nil =>
      cases run
      exact ⟨h, reached, List.prefix_refl _⟩
  | cons m rest ih =>
      simp only [run?] at run
      split at run
      · rename_i stays
        obtain ⟨next, moved, run⟩ := Option.bind_eq_some_iff.mp run
        have step := step_of_step? moved
        have keeping := keeping_of_reachable (contract_kept d) reached
        have place' := Past.versions_mono step.grows place
        obtain ⟨unwinding, reached, later⟩ := ih (h.step keeping up own place step)
          (.step reached rfl moved) (step.storeUp stays up) place' run
        exact ⟨unwinding, reached, step.grows.trans later⟩
      · cases run

end Pipeline

namespace Past

/-- How a reset has come out whose job was refused. It has put back the record that it had found, or
another call's write came after the reset, and then the reset has stored nothing more. -/
inductive Unwound (past : Past) (call : Nat) (id : Uuid) (k : Nat) (failed : Notification) : Prop
  | restored {time : Instant} (read : .answered call .now time ∈ past)
      (stored : (past.writesTo id)[k + 2]? =
        some (call, { failed with version := failed.version + 2, updatedAt := time }))
  | overtaken {other : Nat} {n : Notification} (another : other ≠ call)
      (stored : (past.writesTo id)[k + 2]? = some (other, n))
      (spared : ∀ j n, k + 1 < j → (past.writesTo id)[j]? ≠ some (call, n))

variable {past before after : Past} {call : Nat} {n : Notification} {e : Happening} {id : Uuid}

theorem writesTo_of_split (split : past = before ++ e :: after) (wrote : e.write? = some (call, n))
    (own : n.id = id) :
    past.writesTo id = before.writesTo id ++ (call, n) :: after.writesTo id := by
  rw [split, writesTo_append]
  simp [writesTo, writes, wrote, own]

end Past

namespace Pipeline

variable {d : Deployment} {clock : Instant} {s s' t : Pipeline} {i k : Nat} {id : Uuid}
  {failed pending : Notification} {e : Error} {told : Conversation} {job : Job} {c : Choice}
  {next : Except Error Unit → Prog (Except Error Notification)} {moves : List Move}

theorem pushing_of_reachable (reached : Reachable d (fun s m => anything s m) clock s)
    (asks : s.calls[i]? = some ⟨.resetFailed id, .ask (.enqueue job) next⟩) :
    Service.Pushing id (s.past.conversation i) job next := by
  obtain ⟨b, b', course⟩ := (courses_of_reachable reached).1 i _ asks
  have stages := (Service.resetFailed_stages id).goes course
  rw [List.nil_append] at stages
  exact stages.1

/-- When the queue refuses the job of a reset, nothing else changes, and the record is about to be
put back. -/
theorem unwinding_of_refused (asks : s.calls[i]? = some ⟨.resetFailed id, .ask (.enqueue job) next⟩)
    (refused : s.backend.queue.available = false)
    (rest : ∀ e, (next (.error e)).quiet =
      (Service.putBack id failed pending (.leftPending pending.id e)).quiet)
    (pushed : Step d s (.advance i c) s') (k : Nat) :
    s'.backend = s.backend ∧
      s'.Unwinding i k id failed pending (.leftPending pending.id Queue.unavailableError)
        (s.past.conversation i ++ [⟨.enqueue job, .error Queue.unavailableError⟩]) := by
  cases pushed with
  | @advance _ _ op r _ step asked answered =>
      cases asked.symm.trans asks
      obtain ⟨bound, _⟩ := List.getElem?_eq_some_iff.mp asked
      have same : step = { reply := .error Queue.unavailableError, backend := s.backend } := by
        cases answered
        simp [Backend.enqueue, Queue.enqueue, refused]
      subst same
      refine ⟨rfl, .refused ?_ (Past.conversation_snoc_self _ _ _ _)⟩
      rw [List.getElem?_set_self bound]
      exact congrArg (fun p => some (Call.mk (.resetFailed id) p)) (rest Queue.unavailableError)

/-- The reset has its place in the history of the record, right after the failed version, and the
call has stored nothing after it if it was answered no further write. -/
theorem reset_placed (reached : Reachable d (fun s m => anything s m) clock s)
    {earlier more : Conversation} {time : Instant}
    (found : ⟨.get failed.id, .ok (some failed)⟩ ∈ earlier)
    (spoken : s.past.conversation i =
      earlier ++ ⟨.update (failed.resetAt time), .ok pending⟩ :: more) :
    pending = Store.merged failed (failed.resetAt time) ∧
      ∃ k, (s.past.versions failed.id)[k]? = some failed ∧
        (s.past.writesTo failed.id)[k + 1]? = some (i, pending) ∧
        (Conversation.written more = [] →
          ∀ j n, k + 1 < j → (s.past.writesTo failed.id)[j]? ≠ some (i, n)) := by
  have lawful := (keeping_of_reachable (contract_kept d) reached).lawful
  have read : ⟨.get failed.id, .ok (some failed)⟩ ∈ s.past.conversation i := by
    rw [spoken]
    exact List.mem_append_left _ found
  have known := lawful.known_of_get (Past.mem_conversation.mp read)
  obtain ⟨before, after, split, _, rest⟩ := Past.split_of_exchange spoken
  obtain ⟨k, length, first, _, rfl⟩ := replaced_of_reachable reached split known rfl
  have writes : s.past.writesTo failed.id = before.writesTo failed.id ++
      (i, Store.merged failed (failed.resetAt time)) :: after.writesTo failed.id :=
    Past.writesTo_of_split split rfl rfl
  have length : (before.writesTo failed.id).length = k + 1 := by
    rw [← length, Past.versions, List.length_map]
    rfl
  refine ⟨rfl, k, first, ?_, ?_⟩
  · rw [writes, List.getElem?_append_right (by omega), length]
    simp
  · intro silent j n later wrote
    obtain ⟨m, rfl⟩ : ∃ m, j = k + 1 + (m + 1) := ⟨j - (k + 2), by omega⟩
    rw [writes, List.getElem?_append_right (by omega), length, Nat.add_sub_cancel_left,
      List.getElem?_cons_succ] at wrote
    have mem := (List.mem_filter.mp (List.mem_of_getElem? wrote)).1
    exact Past.not_mem_writes (rest ▸ silent) mem

theorem restored_placed (reached : Reachable d (fun s m => anything s m) clock s)
    {earlier : Conversation} {time : Instant} {stored : Notification}
    (reset : pending = Store.merged failed (failed.resetAt time))
    (place : (s.past.versions failed.id)[k + 1]? = some pending) {later : Instant}
    (spoken : s.past.conversation i =
      earlier ++ [⟨.update (Service.putBackAt failed pending later), .ok stored⟩]) :
    (s.past.writesTo failed.id)[k + 2]? =
      some (i, { failed with version := failed.version + 2, updatedAt := later }) := by
  obtain ⟨before, after, split, _⟩ := Past.split_of_conversation spoken
  obtain ⟨j, length, first, _, rfl⟩ :=
    replaced_of_reachable reached split (List.mem_of_getElem? place) rfl
  have accounted := accounted_of_reachable reached
  obtain rfl : j = k + 1 := by
    have here := accounted.version_eq place
    have there := accounted.version_eq first
    omega
  have writes : s.past.writesTo failed.id = before.writesTo failed.id ++
      (i, Store.merged pending (Service.putBackAt failed pending later)) ::
        after.writesTo failed.id :=
    Past.writesTo_of_split split rfl rfl
  have length : (before.writesTo failed.id).length = k + 2 := by
    rw [← length, Past.versions, List.length_map]
    rfl
  have same : Store.merged pending (Service.putBackAt failed pending later) =
      { failed with version := failed.version + 2, updatedAt := later } := by
    subst reset
    simp [Store.merged, Service.putBackAt, Notification.resetAt, Int.add_assoc]
  rw [writes, List.getElem?_append_right (by omega), length, same]
  simp

theorem Unwinding.rest (h : s.Unwinding i k id failed pending e told) :
    ∃ rest, s.calls[i]? = some ⟨.resetFailed id, rest⟩ ∧ rest.EndsWithin (.error e) 2 := by
  cases h with
  | refused asks spoken =>
      exact ⟨_, asks, Prog.endsWithin_quiet.mpr (Service.putBack_endsWithin id failed pending e)⟩
  | dated asks ends spoken =>
      refine ⟨_, asks, rfl, fun reply => Prog.endsWithin_quiet.mp ?_⟩
      rw [ends]
      rfl
  | restored ended spoken => exact ⟨_, ended, rfl⟩
  | overtaken ended spoken later => exact ⟨_, ended, rfl⟩

theorem Unwinding.spoken (h : s.Unwinding i k id failed pending e told) :
    ∃ more, s.past.conversation i = told ++ more := by
  cases h with
  | refused asks spoken => exact ⟨[], by rw [spoken, List.append_nil]⟩
  | dated asks ends spoken => exact ⟨_, spoken⟩
  | restored ended spoken => exact ⟨_, spoken⟩
  | overtaken ended spoken later => exact ⟨_, spoken⟩

theorem Unwinding.unwound (reached : Reachable d (fun s m => anything s m) clock s)
    {earlier : Conversation} {time read : Instant} {refusal : Error}
    (h : s.Unwinding i k failed.id failed pending e
      (earlier ++ [⟨.update (failed.resetAt time), .ok pending⟩, ⟨.now, read⟩,
        ⟨.enqueue job, .error refusal⟩]))
    (found : ⟨.get failed.id, .ok (some failed)⟩ ∈ earlier)
    (place : (s.past.versions failed.id)[k]? = some failed) {result : Except Error Notification}
    (ended : s.calls[i]? = some ⟨.resetFailed failed.id, .done result⟩) :
    s.past.Unwound i failed.id k failed := by
  have accounted := accounted_of_reachable reached
  have sameIndex {j : Nat} (first : (s.past.versions failed.id)[j]? = some failed) : j = k := by
    have here := accounted.version_eq place
    have there := accounted.version_eq first
    omega
  cases h with
  | refused asks spoken => cases ended.symm.trans asks
  | dated asks ends spoken => cases ended.symm.trans asks
  | @restored later stored _ spoken =>
      obtain ⟨reset, j, first, second, _⟩ := reset_placed reached found
        (spoken.trans (List.append_assoc _ _ _))
      obtain rfl := sameIndex first
      have second : (s.past.versions failed.id)[j + 1]? = some pending :=
        Past.getElem?_versions.mpr ⟨i, second⟩
      have dated : ⟨.now, later⟩ ∈ s.past.conversation i := by simp [spoken]
      have last := spoken.trans (List.append_cons _ _ [_])
      exact .restored (Past.mem_conversation.mp dated) (restored_placed reached reset second last)
  | @overtaken later lost _ spoken more =>
      obtain ⟨reset, j, first, second, spared⟩ := reset_placed reached found
        (spoken.trans (List.append_assoc _ _ _))
      obtain rfl := sameIndex first
      have bound : j + 2 < (s.past.writesTo failed.id).length := by
        simpa [Past.versions] using more
      obtain ⟨⟨other, n⟩, stored⟩ : ∃ w, (s.past.writesTo failed.id)[j + 2]? = some w :=
        ⟨_, List.getElem?_eq_getElem bound⟩
      have spared := spared rfl
      refine .overtaken ?_ stored spared
      rintro rfl
      exact spared (j + 2) n (by omega) stored

/-- A reset whose job the queue refuses comes to an end with that error, whatever others do as long
as the store stays. It has then put the record back as it was, or it has left alone what others have
stored since. -/
theorem rollback_spares_others (reached : Reachable d (fun s m => anything s m) clock s)
    (asks : s.calls[i]? = some ⟨.resetFailed id, .ask (.enqueue job) next⟩)
    (refused : s.backend.queue.available = false) (up : s.backend.store.available = true)
    (pushed : s.step? d (.advance i c) = some s') (run : s'.run? d storeStays moves = some t) :
    s'.backend.queue = s.backend.queue ∧
      ∃ k failed pending time, failed.status = .failed ∧
        (t.past.versions id)[k]? = some failed ∧
        (t.past.writesTo id)[k + 1]? = some (i, pending) ∧
        pending = Store.merged failed (failed.resetAt time) ∧
        ∃ e rest, e.isQueueUnavailable = true ∧ t.calls[i]? = some ⟨.resetFailed id, rest⟩ ∧
          rest.EndsWithin (.error e) 2 ∧
          ∀ result, rest = .done result → t.past.Unwound i id k failed := by
  have step := step_of_step? pushed
  have reached' := Reachable.step reached rfl pushed
  cases pushing_of_reachable reached asks with
  | @intro earlier failed pending time read found wasFailed spoken rest =>
      have said : ⟨.get id, .ok (some failed)⟩ ∈ s.past.conversation i := by
        rw [spoken]
        exact List.mem_append_left _ found
      have lawful := (keeping_of_reachable (contract_kept d) reached).lawful
      obtain rfl := Past.id_of_mem_versions (lawful.known_of_get (Past.mem_conversation.mp said))
      obtain ⟨reset, k, first, second, _⟩ := reset_placed reached found spoken
      have ownId : pending.id = failed.id := by rw [reset]; rfl
      obtain ⟨same, unwinding⟩ := unwinding_of_refused asks refused rest step k
      have place := Past.versions_mono step.grows (Past.getElem?_versions.mpr ⟨i, second⟩)
      obtain ⟨unwinding, reached, grown⟩ := unwinding.run reached' (same ▸ up) rfl place run
      have grown := step.grows.trans grown
      have place := Past.versions_mono grown first
      obtain ⟨left, asks, ends⟩ := unwinding.rest
      rw [spoken, List.append_assoc] at unwinding
      refine ⟨by rw [same], k, failed, pending, time, wasFailed, place,
        Past.writesTo_mono grown second, reset, _, left, rfl, asks, ends, ?_⟩
      rintro result rfl
      exact unwinding.unwound reached found place asks

namespace Sample

/-- The notification has failed for good and is being reset when the queue is lost. -/
def outage : List Move :=
  creation ++ .begin (.record Sample.id 0 (.permanent "gone")) :: [1, 1, 1].map advance ++
    .begin (.resetFailed Sample.id) :: [2, 2, 2, 2].map advance ++ [.setAvailable true false]

/-- Another call marks the notification as queued before the reset puts it back. -/
def overtaking : List Move :=
  .begin (.markQueued Sample.id) :: [3, 3, 3, 2, 2].map advance

end Sample

/-- The reset whose push was refused finds that another call has marked the notification as queued,
and leaves it so. -/
theorem rollback_spares_others_when_overtaken : ∃ s s' t job next result,
    (initial Sample.clock).run? Sample.deployment anything Sample.outage = some s ∧
      s.calls[2]? = some ⟨.resetFailed Sample.id, .ask (.enqueue job) next⟩ ∧
      s.backend.queue.available = false ∧ s.backend.store.available = true ∧
      s.step? Sample.deployment (Sample.advance 2) = some s' ∧
      s'.run? Sample.deployment storeStays Sample.overtaking = some t ∧
      t.calls[2]? = some ⟨.resetFailed Sample.id, .done result⟩ ∧
      (t.backend.store.find? Sample.id).map Notification.status = some .queued ∧
      s'.backend.queue = s.backend.queue ∧
      ∃ k failed, t.past.Unwound 2 Sample.id k failed := by
  have run : ∃ s s' t job next result,
      (initial Sample.clock).run? Sample.deployment anything Sample.outage = some s ∧
        s.calls[2]? = some ⟨.resetFailed Sample.id, .ask (.enqueue job) next⟩ ∧
        s.backend.queue.available = false ∧ s.backend.store.available = true ∧
        s.step? Sample.deployment (Sample.advance 2) = some s' ∧
        s'.run? Sample.deployment storeStays Sample.overtaking = some t ∧
        t.calls[2]? = some ⟨.resetFailed Sample.id, .done result⟩ ∧
        (t.backend.store.find? Sample.id).map Notification.status = some .queued :=
    ⟨_, _, _, _, _, _, rfl, rfl, rfl, rfl, rfl, rfl, rfl, rfl⟩
  obtain ⟨s, s', t, job, next, result, start, asks, refused, up, pushed, run, ended, queued⟩ := run
  obtain ⟨same, k, failed, _, _, _, _, _, _, _, rest, _, left, _, unwound⟩ :=
    rollback_spares_others (Reachable.initial.run start) asks refused up pushed run
  rw [ended] at left
  cases left
  exact ⟨s, s', t, job, next, result, start, asks, refused, up, pushed, run, ended, queued, same,
    k, failed, unwound result rfl⟩

end Pipeline
end Courier
