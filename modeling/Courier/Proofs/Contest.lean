import Courier.Proofs.Compliance
import Courier.Proofs.Listings
import Courier.Proofs.LiveJobs
import Mathlib.Data.Finset.Card
import Mathlib.Logic.Function.Basic

/-!
Resets of failed notifications that are made at the same time. A notification falls to the call
whose reset of it is stored first. Nobody else then writes its record or pushes its job, and a reset
that comes later finds it failed no longer.
-/
namespace Courier

/-- The backends as they are, and which call has reset which notification. -/
structure Contest where
  real : Backend
  resetter : Uuid → Option Nat

namespace Contest

open Service

/-- The backends with another record in the place of the one with its identifier. -/
def storing (b : Backend) (n : Notification) : Backend := { b with store := b.store.put n }

/-- What a call may do: reset a notification that has failed, push a job for one that it has reset,
and mark one that it has reset as queued when the job for its first attempt waits. -/
inductive Moves (me : Nat) (v : Contest) : Contest → Prop
  | idle : Moves me v v
  | passed {t : Instant} : Moves me v { v with real := { v.real with clock := t } }
  | reset {n : Notification} {t : Instant} (found : v.real.store.find? n.id = some n)
      (failed : n.status = .failed) (free : v.resetter n.id = none) :
      Moves me v ⟨storing v.real (Store.merged n (n.resetAt t)),
        Function.update v.resetter n.id (some me)⟩
  | pushed {job : Job} (own : v.resetter job.notificationId = some me) :
      Moves me v { v with real := { v.real with queue := v.real.queue.push job } }
  | queued {n : Notification} {t : Instant} (found : v.real.store.find? n.id = some n)
      (pending : n.status = .pending) (own : v.resetter n.id = some me)
      (waits : v.real.queue.isWaiting (n.id, 0) = true) :
      Moves me v { v with real := storing v.real (Store.merged n (n.queuedFrom t)) }

def protocol : Protocol Contest := ⟨Contest.real, Moves⟩

@[simp] theorem real_protocol (v : Contest) : protocol.real v = v.real := rfl

/-- How far a notification has come since the store was as it was at the start. -/
inductive Stage (start : Store) (v : Contest) (id : Uuid) : Prop
  | untouched (free : v.resetter id = none) (same : v.real.store.find? id = start.find? id)
  | pending {me : Nat} {n : Notification} {t : Instant} (own : v.resetter id = some me)
      (found : start.find? id = some n) (failed : n.status = .failed)
      (now : v.real.store.find? id = some (Store.merged n (n.resetAt t)))
  | queued {me : Nat} {n q : Notification} {t t' : Instant} (own : v.resetter id = some me)
      (found : start.find? id = some n) (failed : n.status = .failed)
      (now : v.real.store.find? id = some q)
      (same : q = { (n.resetAt t).queuedFrom t' with version := n.version + 2 })
      (waits : v.real.queue.isWaiting (id, 0) = true)

/-- The backends are up, and every notification is at some stage. -/
structure Sound (start : Store) (v : Contest) : Prop where
  storeUp : v.real.store.available = true
  queueUp : v.real.queue.available = true
  keys : v.real.queue.keys.Nodup
  ids : v.real.store.ids = start.ids
  stage : ∀ id, Stage start v id

variable {start : Store} {v v' : Contest} {me i : Nat} {id : Uuid} {n p : Notification} {job : Job}
  {won queued : Finset Uuid}

theorem merged_requeued (n : Notification) (t t' : Instant) :
    Store.merged (Store.merged n (n.resetAt t)) ((Store.merged n (n.resetAt t)).queuedFrom t') =
      { (n.resetAt t).queuedFrom t' with version := n.version + 2 } := by
  simp [Store.merged, Notification.queuedFrom, Notification.resetAt, Int.add_assoc]

theorem Stage.framed (h : Stage start v id) (resetter : v'.resetter id = v.resetter id)
    (record : v'.real.store.find? id = v.real.store.find? id)
    (waits : v.real.queue.isWaiting (id, 0) = true → v'.real.queue.isWaiting (id, 0) = true) :
    Stage start v' id := by
  cases h with
  | untouched free same => exact .untouched (resetter.trans free) (record.trans same)
  | pending own found failed now =>
      exact .pending (resetter.trans own) found failed (record.trans now)
  | queued own found failed now same waiting =>
      exact .queued (resetter.trans own) found failed (record.trans now) same (waits waiting)

/-- A notification that nobody has reset is stored as at the start. -/
theorem Sound.same_of_free (h : v.Sound start) (free : v.resetter id = none) :
    v.real.store.find? id = start.find? id := by
  cases h.stage id with
  | untouched _ same => exact same
  | pending own => exact nomatch free.symm.trans own
  | queued own => exact nomatch free.symm.trans own

/-- A notification that somebody has reset had failed at the start. It is failed no longer, and its
record is a later version. -/
theorem Sound.taken (h : v.Sound start) (taken : v.resetter id = some i) :
    ∃ n q, start.find? id = some n ∧ n.status = .failed ∧ v.real.store.find? id = some q ∧
      q.status ≠ .failed ∧ n.version < q.version := by
  cases h.stage id with
  | untouched free _ => exact nomatch free.symm.trans taken
  | @pending _ n t _ found failed now =>
      refine ⟨n, _, found, failed, now, fun again => (nomatch again), ?_⟩
      show n.version < n.version + 1
      omega
  | @queued _ n q t t' _ found failed now same waits =>
      subst same
      refine ⟨n, _, found, failed, now, fun again => (nomatch again), ?_⟩
      show n.version < n.version + 2
      omega

theorem Sound.untouched (h : v.Sound start) (found : v.real.store.find? id = some n)
    (failed : n.status = .failed) : v.resetter id = none ∧ start.find? id = some n := by
  cases taken : v.resetter id with
  | none => exact ⟨rfl, (h.same_of_free taken).symm.trans found⟩
  | some i =>
      obtain ⟨_, q, _, _, now, unfailed, _⟩ := h.taken taken
      obtain rfl := Option.some.inj (found.symm.trans now)
      exact absurd failed unfailed

theorem Sound.moves (h : v.Sound start) (moved : Moves i v v') : v'.Sound start := by
  cases moved with
  | idle => exact h
  | passed =>
      exact ⟨h.storeUp, h.queueUp, h.keys, h.ids, fun id => (h.stage id).framed rfl rfl fun w => w⟩
  | @reset n t found failed free =>
      refine ⟨h.storeUp, h.queueUp, h.keys, (Store.ids_put _ _).trans h.ids, fun id => ?_⟩
      by_cases own : n.id = id
      · subst own
        obtain ⟨_, known⟩ := h.untouched found failed
        exact .pending (Function.update_self _ _ _) known failed (Store.find?_put_self found)
      · exact (h.stage id).framed (Function.update_of_ne (Ne.symm own) _ _)
          (Store.find?_put_of_ne own)
          fun w => w
  | pushed own =>
      refine ⟨h.storeUp, (Queue.available_push _ _).trans h.queueUp,
        Queue.nodup_keys_push h.keys, h.ids,
        fun id => (h.stage id).framed rfl rfl fun waiting => ?_⟩
      exact Queue.isWaiting_push_of_waiting waiting _
  | @queued p t found pending own waits =>
      refine ⟨h.storeUp, h.queueUp, h.keys, (Store.ids_put _ _).trans h.ids, fun id => ?_⟩
      by_cases same : p.id = id
      · subst same
        have record : (storing v.real (Store.merged p (p.queuedFrom t))).store.find? p.id =
            some (Store.merged p (p.queuedFrom t)) := Store.find?_put_self found
        cases h.stage p.id with
        | untouched free _ => exact nomatch free.symm.trans own
        | @pending _ n _ _ known failed now =>
            rw [found] at now
            cases now
            exact .queued own known failed record (merged_requeued _ _ _) waits
        | queued _ _ _ now same _ =>
            rw [found] at now
            cases now
            rw [same] at pending
            cases pending
      · exact (h.stage id).framed rfl (Store.find?_put_of_ne same) fun w => w

theorem Moves.resetter (moved : Moves i v v') (own : v.resetter id = some me) :
    v'.resetter id = some me := by
  cases moved with
  | @reset n t found failed free =>
      have other : id ≠ n.id := by
        rintro rfl
        exact nomatch free.symm.trans own
      exact (Function.update_of_ne other _ _).trans own
  | _ => exact own

theorem Moves.resetter_iff (moved : Moves i v v') (other : i ≠ me) :
    v'.resetter id = some me ↔ v.resetter id = some me := by
  refine ⟨fun own => ?_, moved.resetter⟩
  cases moved with
  | @reset n t found failed free =>
      by_cases same : id = n.id
      · subst same
        have mine : some i = some me := by simpa using own
        exact absurd (Option.some.inj mine) other
      · simpa [same] using own
  | _ => exact own

theorem Moves.record (moved : Moves i v v') (other : i ≠ me) (own : v.resetter id = some me) :
    v'.real.store.find? id = v.real.store.find? id := by
  cases moved with
  | @reset n t found failed free =>
      have another : n.id ≠ id := by
        rintro rfl
        exact nomatch free.symm.trans own
      exact Store.find?_put_of_ne another
  | @queued p t found pending theirs waits =>
      have another : p.id ≠ id := by
        rintro rfl
        exact other (Option.some.inj (theirs.symm.trans own))
      exact Store.find?_put_of_ne another
  | _ => rfl

theorem Moves.waiting {key : Job.Key} (moved : Moves i v v')
    (waits : v.real.queue.isWaiting key = true) : v'.real.queue.isWaiting key = true := by
  cases moved with
  | pushed own => exact Queue.isWaiting_push_of_waiting waits _
  | _ => exact waits

/-- The call has reset the notifications `won`, and those `queued` among them are marked as
queued. -/
structure Holds (start : Store) (me : Nat) (won queued : Finset Uuid) (v : Contest) : Prop where
  sound : v.Sound start
  own : ∀ id, v.resetter id = some me ↔ id ∈ won
  done : ∀ id ∈ queued, id ∈ won ∧ ∃ q, v.real.store.find? id = some q ∧ q.status = .queued

/-- The call has reset the notification last that is now stored as `p`, and has still to mark it as
queued. -/
structure Amid (start : Store) (me : Nat) (won : Finset Uuid) (p : Notification) (v : Contest) :
    Prop where
  holds : v.Holds start me (insert p.id won) won
  fresh : p.id ∉ won
  stored : v.real.store.find? p.id = some p
  pending : p.status = .pending
  anew : p.attemptCount = 0

/-- The others may have brought about so much in the meantime. -/
abbrev Later (me : Nat) (v v' : Contest) : Prop := Relation.ReflTransGen (protocol.Others me) v v'

theorem Holds.others (h : v.Holds start me won queued) (others : protocol.Others me v v') :
    v'.Holds start me won queued := by
  obtain ⟨i, other, moved⟩ := others
  refine ⟨h.sound.moves moved, fun id => (moved.resetter_iff other).trans (h.own id),
    fun id mem => ?_⟩
  obtain ⟨mine, q, found, status⟩ := h.done id mem
  exact ⟨mine, q, (moved.record other ((h.own id).mpr mine)).trans found, status⟩

theorem Holds.later (h : v.Holds start me won queued) (later : Later me v v') :
    v'.Holds start me won queued :=
  kept_of_steps (fun _ _ h => h.others) h later

theorem Amid.others (h : v.Amid start me won p) (others : protocol.Others me v v') :
    v'.Amid start me won p := by
  obtain ⟨i, other, moved⟩ := others
  have own := (h.holds.own p.id).mpr (Finset.mem_insert_self _ _)
  exact ⟨h.holds.others ⟨i, other, moved⟩, h.fresh,
    (moved.record other own).trans h.stored, h.pending, h.anew⟩

theorem Amid.later (h : v.Amid start me won p) (later : Later me v v') : v'.Amid start me won p :=
  kept_of_steps (fun _ _ h => h.others) h later

theorem Sound.later (h : v.Sound start) (later : Later me v v') : v'.Sound start :=
  kept_of_steps (fun _ _ h ⟨_, _, moved⟩ => h.moves moved) h later

theorem resetter_later (taken : v.resetter id = some i) (later : Later me v v') :
    v'.resetter id = some i :=
  kept_of_steps (P := fun v => v.resetter id = some i)
    (fun _ _ taken ⟨_, _, moved⟩ => moved.resetter taken) taken later

theorem waiting_later {key : Job.Key} (waits : v.real.queue.isWaiting key = true)
    (later : Later me v v') : v'.real.queue.isWaiting key = true :=
  kept_of_steps (P := fun v => v.real.queue.isWaiting key = true)
    (fun _ _ waits ⟨_, _, moved⟩ => moved.waiting waits) waits later

theorem Holds.resets {t : Instant} (h : v.Holds start me won won)
    (found : v.real.store.find? n.id = some n) (failed : n.status = .failed) :
    ∃ v', v'.real = storing v.real (Store.merged n (n.resetAt t)) ∧ Moves me v v' ∧
      v'.Amid start me won (Store.merged n (n.resetAt t)) := by
  obtain ⟨free, _⟩ := h.sound.untouched found failed
  have fresh : n.id ∉ won := fun mem => nomatch free.symm.trans ((h.own n.id).mpr mem)
  have moved : Moves me v ⟨storing v.real (Store.merged n (n.resetAt t)),
      Function.update v.resetter n.id (some me)⟩ := .reset found failed free
  refine ⟨_, rfl, moved, ⟨h.sound.moves moved, fun id => ?_, fun id mem => ?_⟩, fresh,
    Store.find?_put_self found, rfl, rfl⟩
  · by_cases same : id = n.id
    · simp [same, Store.merged, Notification.resetAt]
    · simp [same, h.own id, Store.merged, Notification.resetAt]
  · have other : n.id ≠ id := by
      rintro rfl
      exact fresh mem
    obtain ⟨_, q, stored, status⟩ := h.done id mem
    refine ⟨Finset.mem_insert_of_mem mem, q, ?_, status⟩
    rw [← stored]
    exact Store.find?_put_of_ne other

theorem Amid.pushes {t : Instant} (h : v.Amid start me won p) :
    ∃ v', v'.real = { v.real with queue := v.real.queue.push (.immediate p.id 0 t) } ∧
      Moves me v v' ∧
      v'.Amid start me won p ∧ v'.real.queue.isWaiting (p.id, 0) = true := by
  have own := (h.holds.own p.id).mpr (Finset.mem_insert_self _ _)
  have moved : Moves me v { v with real := { v.real with
      queue := v.real.queue.push (.immediate p.id 0 t) } } := .pushed own
  refine ⟨_, rfl, moved, ⟨⟨h.holds.sound.moves moved, h.holds.own, h.holds.done⟩, h.fresh, h.stored,
    h.pending, h.anew⟩, ?_⟩
  exact Queue.isWaiting_push _ _

theorem Amid.marks {t : Instant} (h : v.Amid start me won p)
    (waits : v.real.queue.isWaiting (p.id, 0) = true) :
    ∃ v', v'.real = storing v.real (Store.merged p (p.queuedFrom t)) ∧ Moves me v v' ∧
      v'.Holds start me (insert p.id won) (insert p.id won) := by
  have own := (h.holds.own p.id).mpr (Finset.mem_insert_self _ _)
  have moved : Moves me v { v with real := storing v.real (Store.merged p (p.queuedFrom t)) } :=
    .queued h.stored h.pending own waits
  refine ⟨_, rfl, moved, h.holds.sound.moves moved, h.holds.own, fun id mem => ⟨mem, ?_⟩⟩
  by_cases same : p.id = id
  · subst same
    exact ⟨_, Store.find?_put_self h.stored, rfl⟩
  · have earlier := (Finset.mem_insert.mp mem).resolve_left (Ne.symm same)
    obtain ⟨_, q, stored, status⟩ := h.holds.done id earlier
    refine ⟨q, ?_, status⟩
    rw [← stored]
    exact Store.find?_put_of_ne same

end Contest
end Courier
