import Courier.Proofs.LiveJobs
import Courier.Proofs.Orderly

/-!
The times of records and of jobs. The record of a notification that waits for a retry shows the
instant from which it may be tried again, and the retry job waits for an instant of its own. The
requests that leave the two in agreement, and what is known after each of them, where calls follow
one another and no retry is pushed to a queue in which a job for the same attempt waits already and
is visible earlier.
-/
namespace Courier

open Prog

/-- The times of the record and of the jobs for its next attempt agree. -/
structure Queue.Fits (q : Queue) (n : Notification) : Prop where
  pending : n.status = .pending → n.nextRetryAt = none
  queued : n.status = .queued → ∀ t, n.nextRetryAt = some t →
    ∀ job ∈ q.liveJobs, job.key = (n.id, n.attemptCount) → t ≤ job.visibleAt

theorem Queue.fits_of_terminal {q : Queue} {n : Notification}
    (terminal : n.status.isTerminal = true) :
    q.Fits n := by
  refine ⟨?_, ?_⟩
  · intro pending
    rw [pending] at terminal
    cases terminal
  · intro queued
    rw [queued] at terminal
    cases terminal

theorem Queue.Fits.less {q after : Queue} {n : Notification} (h : q.Fits n)
    (less : after.liveJobs ⊆ q.liveJobs) : after.Fits n := by
  refine ⟨h.pending, ?_⟩
  intro queued t due job live same
  exact h.queued queued t due job (less live) same

namespace Backend

variable {b before after : Backend} {n : Notification} {job : Job} {c : Choice} {r : Request}

/-- Whether a push of that job would come to nothing, because one for the same attempt waits that is
visible earlier. -/
def forestalls (b : Backend) (job : Job) : Bool :=
  b.queue.waiting.any fun e => e.job.key == job.key && decide (e.job.visibleAt < job.visibleAt)

/-- Retries are pushed only where they are not forestalled. -/
def takesRetries (b : Backend) : Request → Bool
  | .enqueue job => job.attempt == 0 || !b.forestalls job
  | _ => true

structure Timely (b : Backend) : Prop where
  keys : b.queue.keys.Nodup
  fits : ∀ id n, b.store.find? id = some n → b.queue.Fits n

/-- The request leaves the times in agreement. -/
def Suits (b : Backend) : Request → Prop
  | .insert n | .update n => b.queue.Fits n
  | .enqueue job => ∀ n, b.store.find? job.notificationId = some n → n.attemptCount = job.attempt →
      n.nextRetryAt = none
  | _ => True

theorem Timely.less (h : b.Timely) (store : ∀ id, after.store.find? id = b.store.find? id)
    (less : after.queue.liveJobs.Subperm b.queue.liveJobs) : after.Timely := by
  refine ⟨Queue.nodup_map_of_subperm h.keys less, ?_⟩
  intro id n found
  rw [store] at found
  exact (h.fits id n found).less less.subset

theorem Timely.passes (h : b.Timely) (passes : b.Passes after) : after.Timely := by
  apply h.less passes.find?
  rw [passes.liveJobs]

theorem Suits.passes (h : b.Suits r) (passes : b.Passes after) : after.Suits r := by
  cases r with
  | insert n =>
      apply Queue.Fits.less h
      rw [passes.liveJobs]
      exact List.Subset.refl _
  | update n =>
      apply Queue.Fits.less h
      rw [passes.liveJobs]
      exact List.Subset.refl _
  | enqueue job =>
      intro n found
      rw [passes.find?] at found
      exact h n found
  | _ => trivial

theorem Timely.push (h : b.Timely) (suits : b.Suits (.enqueue job)) :
    Timely { b with queue := b.queue.push job } := by
  refine ⟨Queue.nodup_keys_push h.keys, ?_⟩
  intro id n found
  have fits := h.fits id n found
  refine ⟨fits.pending, ?_⟩
  intro queued t due other live same
  rcases Queue.liveJobs_push live with rfl | old
  · obtain ⟨own, current⟩ := Prod.mk.inj same
    obtain rfl := Store.id_of_find? found
    rw [← own] at found
    have none := suits n found current.symm
    rw [none] at due
    cases due
  · exact fits.queued queued t due other old same

theorem Timely.answer {step : Step r.Reply} (h : b.Timely) (suits : b.Suits r)
    (answered : b.answer c r = some step) : step.backend.Timely := by
  cases r with
  | insert n =>
      cases answered
      simp only [Backend.insert]
      split
      · rename_i store inserted
        obtain ⟨absent, rfl⟩ := Store.insert_eq_ok inserted
        refine ⟨h.keys, ?_⟩
        intro id x found
        rw [Store.find?_append absent] at found
        split at found
        · cases found
          exact suits
        · exact h.fits id x found
      · exact h
  | update n =>
      cases answered
      simp only [Backend.update]
      split
      · rename_i stored store updated
        obtain ⟨old, present, _, rfl, rfl⟩ := Store.update_eq_ok updated
        have present : b.store.find? (Store.merged old n).id = some old := present
        refine ⟨h.keys, ?_⟩
        intro id x found
        rw [Store.find?_put present] at found
        split at found
        · cases found
          exact ⟨suits.pending, suits.queued⟩
        · exact h.fits id x found
      · exact h
  | enqueue job =>
      cases answered
      simp only [Backend.enqueue]
      split
      · rename_i queue pushed
        obtain rfl := Queue.enqueue_eq_ok pushed
        exact h.push suits
      · exact h
  | ack token =>
      cases answered
      simp only [Backend.ack]
      split
      · rename_i held queue acked
        obtain ⟨_, rfl⟩ := Queue.ack_eq_ok acked
        exact h.less (fun _ => rfl) (Queue.liveJobs_filter _ _).subperm
      · exact h
  | draw bound =>
      simp only [Backend.answer] at answered
      split at answered
      · cases answered
        exact h
      · cases answered
  | now | freshId | get | scan | depth | send =>
      cases answered
      exact h
  | wallSeconds | lease | pause | probe | remembered | settle | endWatch | acquire | introspect =>
      cases answered

end Backend

/-- Among no others and with no retry forestalled, the program leaves the times in agreement. -/
abbrev Prog.KeepsTimes {α : Type} (p : Prog α) (post : α → Backend → Prop) (b : Backend) : Prop :=
  p.Preserves Backend.takesRetries Backend.Timely post b

section

variable {b : Backend} {n : Notification} {id : Uuid}

theorem keepsTimes_ask {r : Request} {post : r.Reply → Backend → Prop} (holds : b.Timely)
    (suits : b.Suits r)
    (h : ∀ before c step, b.Passes before → before.Timely → before.takesRetries r = true →
      before.answer c r = some step → post step.reply step.backend) :
    (Prog.ask r .done).KeepsTimes post b := by
  apply meets_ask
  intro before c step passes allowed answered
  have timely := holds.passes passes
  have kept := timely.answer (suits.passes passes) answered
  refine ⟨kept, kept, ?_⟩
  intro _ same
  cases same
  exact h before c step passes timely allowed answered

theorem now_keepsTimes (holds : b.Timely) : now.KeepsTimes (fun _ after => b.Passes after) b := by
  have suits : b.Suits .now := trivial
  apply keepsTimes_ask holds suits
  intro before c step passes _ _ answered
  cases answered
  exact passes

theorem update_keepsTimes (holds : b.Timely) (fits : b.queue.Fits n) :
    (update n).KeepsTimes (fun reply after => ∀ stored, reply = .ok stored →
      after.store.find? stored.id = some stored ∧ ∃ old, stored = Store.merged old n) b := by
  have suits : b.Suits (.update n) := fits
  apply keepsTimes_ask holds suits
  intro before c step _ _ _ answered stored same
  obtain ⟨old, present, _, rfl, after⟩ := Backend.answer_update answered same
  have present : before.store.find? (Store.merged old n).id = some old := present
  rw [after]
  exact ⟨Store.find?_put_self present, old, rfl⟩

theorem push_keepsTimes {job : Job} (holds : b.Timely) (suits : b.Suits (.enqueue job)) :
    (enqueue job).KeepsTimes (fun reply after => reply = .ok () → 0 < job.attempt →
      ∀ other ∈ after.queue.liveJobs, other.key = job.key → job.visibleAt ≤ other.visibleAt) b := by
  apply keepsTimes_ask holds suits
  intro before c step _ timely allowed answered same retry other live key
  rw [Backend.answer_enqueue answered same] at live
  rcases Queue.eq_or_waiting_of_push timely.keys live key with rfl | ⟨e, waits, rfl⟩
  · exact Instant.le_refl _
  · -- the job that waits is the one that counts, and the rule says that it is not visible earlier
    have free : before.forestalls job = false := by
      have first : (job.attempt == 0) = false := beq_false_of_ne (by omega)
      simpa [Backend.takesRetries, first] using allowed
    have later := List.any_eq_false.mp free e waits
    simp only [key, beq_self_eq_true, Bool.true_and, decide_eq_true_eq] at later
    exact Int.not_lt.mp later

theorem get_keepsTimes (holds : b.Timely) (id : Uuid) :
    (Service.get id).KeepsTimes (fun result after => ∀ n, result = .ok n →
      after.store.find? id = some n) b := by
  have suits : b.Suits (.get id) := trivial
  have read : (get id).KeepsTimes (fun reply after => ∀ n, reply = .ok (some n) →
      after.store.find? id = some n) b := by
    apply keepsTimes_ask holds suits
    intro before c step _ _ _ answered n same
    obtain ⟨found, after⟩ := Backend.answer_get answered same
    rw [after]
    exact found
  apply read.bind
  intro reply after holds found
  match reply with
  | .error e => exact preserves_pure holds fun _ same => nomatch same
  | .ok none => exact preserves_pure holds fun _ same => nomatch same
  | .ok (some n) =>
      apply preserves_pure holds
      intro _ same
      cases same
      exact found n rfl

end

end Courier
