import Courier.Proofs.LiveJobs
import Courier.Proofs.Rulings
import Courier.Proofs.Serialization

/-!
A view of reports on one notification that are made at the same time. Where delays have no random
part and the clock stands still, a report can do three things to the backends: push the job for the
next attempt, replace the record and with it count one attempt more, or replace the record for the
last time. What a report has seen and done so far limits what the others may have done since.
-/
namespace Courier

open Prog Service

theorem Status.ne_queued {x : Status} (terminal : x.isTerminal = true) : x ≠ .queued := by
  rintro rfl
  cases terminal

def Call.isStale : Call → Bool
  | ⟨.record _ _ _, .done (.ok r)⟩ => r.isStale
  | _ => false

/-- A view of reports on one notification. While it waits for an attempt, or when it has done so
last, a report that the attempt has failed pushes the job `candidate`; the first to do so since the
record was last replaced is the call `pusher`. -/
structure Race where
  real : Backend
  serial : Backend
  candidate : Option Job
  pusher : Option Nat

namespace Race

def replaced (b : Backend) (cur : Notification) (ruling : Ruling) (queue : Queue) : Backend :=
  { b with store := b.store.put (Store.merged cur ruling.next), queue }

/-- What a call may do: nothing, push a job for a retry, or replace the record. -/
inductive Moves (policy : Retry.Policy) (id : Uuid) (me : Nat) : Operation → Race → Race → Prop
  | idle {op : Operation} {v : Race} : Moves policy id me op v v
  | pushed {attempt : Nat} {message : String} {v : Race} {job : Job} (due : v.candidate = some job)
      (first : v.pusher = none) (own : job.key = (id, attempt + 1)) :
      Moves policy id me (.record id attempt (.transient message)) v
        { v with real := { v.real with queue := v.real.queue.push job }, pusher := some me }
  | retried {outcome : Outcome} {v : Race} {cur : Notification} {ruling : Ruling} {job : Job}
      {event : Event} (found : v.real.store.find? id = some cur) (queued : cur.status = .queued)
      (ruled : ruling? policy cur v.real.clock outcome = some ruling)
      (retry : ruling.retry = some (job, event))
      (pushed : v.real.queue = v.serial.queue.push job) :
      Moves policy id me (.record id cur.attemptCount outcome) v
        { real := replaced v.real cur ruling v.real.queue
          serial := replaced v.serial cur ruling (v.serial.queue.push job)
          candidate := retryJob? policy (Store.merged cur ruling.next) v.real.clock
          pusher := none }
  | ended {outcome : Outcome} {v : Race} {cur : Notification} {ruling : Ruling}
      (found : v.real.store.find? id = some cur) (queued : cur.status = .queued)
      (ruled : ruling? policy cur v.real.clock outcome = some ruling) (last : ruling.retry = none) :
      Moves policy id me (.record id cur.attemptCount outcome) v
        { v with
          real := replaced v.real cur ruling v.real.queue
          serial := replaced v.serial cur ruling v.serial.queue }

def Ended (id : Uuid) (v : Race) : Prop :=
  ∃ n, v.real.store.find? id = some n ∧ n.status.isTerminal = true

/-- A call whose push may be left over when it is over was stale, and the delivery has come to an
end. -/
def view (policy : Retry.Policy) (id : Uuid) : View Race where
  real := Race.real
  serial := Race.serial
  moves := Moves policy id
  closes me call v := v.pusher = some me → call.isStale = true ∧ Ended id v

/-- The two sides of the view agree but for the candidate, if it was pushed. -/
structure Linked (policy : Retry.Policy) (id : Uuid) (v : Race) : Prop where
  stores : v.serial.store = v.real.store
  clocks : v.serial.clock = v.real.clock
  storeUp : v.real.store.available = true
  queueUp : v.real.queue.available = true
  serialUp : v.serial.queue.available = true
  waits : ∀ cur, v.real.store.find? id = some cur → cur.status = .queued →
    v.candidate = retryJob? policy cur v.real.clock
  queues : v.pusher = none ∧ v.real.queue = v.serial.queue ∨ ∃ i job, v.pusher = some i ∧
    v.candidate = some job ∧ v.real.queue = v.serial.queue.push job

/-- The attempt with that number has been dealt with: it was the last one, or the next one is
due. -/
def Beyond (attempt : Nat) (n : Notification) : Prop :=
  n.status.isTerminal = true ∨ n.status = .queued ∧ attempt < n.attemptCount

variable {policy : Retry.Policy} {id : Uuid} {me i : Nat} {op : Operation} {v v' : Race}
  {cur n : Notification} {job : Job} {ruling : Ruling} {outcome : Outcome} {time : Instant}
  {attempt : Nat}

theorem Beyond.trans (earlier : Beyond attempt cur) (queued : cur.status = .queued)
    (h : Beyond cur.attemptCount n) : Beyond attempt n := by
  rcases earlier with terminal | ⟨_, less⟩
  · exact absurd queued (Status.ne_queued terminal)
  · rcases h with terminal | ⟨again, more⟩
    · exact .inl terminal
    · exact .inr ⟨again, Nat.lt_trans less more⟩

theorem beyond_of_ruling (ruled : ruling? policy cur time outcome = some ruling)
    (queued : cur.status = .queued) : Beyond cur.attemptCount (Store.merged cur ruling.next) := by
  cases retry : ruling.retry with
  | none => exact .inl (terminal_of_ruling ruled retry)
  | some pushed =>
      obtain ⟨status, count, _⟩ := retried_of_ruling ruled retry
      exact .inr ⟨status.trans queued, by
        show cur.attemptCount < ruling.next.attemptCount
        omega⟩

theorem find?_replaced {b : Backend} (plain : policy.jitter = false)
    (found : b.store.find? id = some cur) (ruled : ruling? policy cur time outcome = some ruling)
    (queue : Queue) :
    (replaced b cur ruling queue).store.find? id = some (Store.merged cur ruling.next) := by
  have own := Store.id_of_find? found
  have same : (Store.merged cur ruling.next).id = id :=
    (reported_of_ruling plain ruled).id_eq.trans own
  rw [← same] at found ⊢
  exact Store.find?_put_self found

theorem Linked.queue_of_none (h : Linked policy id v) (none : v.pusher = none) :
    v.real.queue = v.serial.queue := by
  rcases h.queues with ⟨_, same⟩ | ⟨i, job, some, _⟩
  · exact same
  · rw [none] at some
    cases some

theorem Linked.moves (plain : policy.jitter = false) (h : Linked policy id v)
    (moved : Moves policy id me op v v') : Linked policy id v' := by
  have stores (cur : Notification) (ruling : Ruling) :
      v.serial.store.put (Store.merged cur ruling.next) =
        v.real.store.put (Store.merged cur ruling.next) := by
    rw [h.stores]
  cases moved with
  | idle => exact h
  | @pushed attempt message _ job due first own =>
      refine ⟨h.stores, h.clocks, h.storeUp, ?_, h.serialUp, h.waits, .inr ⟨me, job, rfl, due, ?_⟩⟩
      · exact (Queue.available_push _ _).trans h.queueUp
      · show v.real.queue.push job = v.serial.queue.push job
        rw [h.queue_of_none first]
  | @retried outcome _ cur ruling job event found queued ruled retry pushed =>
      refine ⟨stores cur ruling, h.clocks, h.storeUp, h.queueUp, ?_, ?_, .inl ⟨rfl, pushed⟩⟩
      · exact (Queue.available_push _ _).trans h.serialUp
      · intro n current _
        rw [find?_replaced plain found ruled] at current
        cases current
        rfl
  | @ended outcome _ cur ruling found queued ruled last =>
      refine ⟨stores cur ruling, h.clocks, h.storeUp, h.queueUp, h.serialUp, ?_, h.queues⟩
      intro n current again
      rw [find?_replaced plain found ruled] at current
      cases current
      exact absurd again (Status.ne_queued (terminal_of_ruling ruled last))

theorem Moves.clock (moved : Moves policy id me op v v') : v'.real.clock = v.real.clock := by
  cases moved <;> rfl

/-- A move leaves the record as it is, or replaces it by one that is beyond the attempt that was
due. Only at the end of the delivery does it leave a push that no write has answered for. -/
theorem Moves.record (plain : policy.jitter = false) (found : v.real.store.find? id = some n)
    (moved : Moves policy id i op v v') :
    v'.real.store.find? id = some n ∨ n.status = .queued ∧ ∃ next,
      v'.real.store.find? id = some next ∧ n.version < next.version ∧ Beyond n.attemptCount next ∧
        (v'.pusher ≠ none → next.status.isTerminal = true) := by
  have replaces {outcome : Outcome} {ruling : Ruling} (queued : n.status = .queued)
      (ruled : ruling? policy n v.real.clock outcome = some ruling) (queue : Queue) :
      (replaced v.real n ruling queue).store.find? id = some (Store.merged n ruling.next) ∧
        n.version < (Store.merged n ruling.next).version ∧
        Beyond n.attemptCount (Store.merged n ruling.next) := by
    refine ⟨find?_replaced plain found ruled queue, ?_, beyond_of_ruling ruled queued⟩
    have version := (reported_of_ruling plain ruled).version_eq
    show n.version < ruling.next.version + 1
    omega
  cases moved with
  | idle => exact .inl found
  | pushed due first own => exact .inl found
  | retried current queued ruled retry pushed =>
      rw [found] at current
      cases current
      obtain ⟨now, newer, beyond⟩ := replaces queued ruled v.real.queue
      exact .inr ⟨queued, _, now, newer, beyond, fun some => (some rfl).elim⟩
  | ended current queued ruled last =>
      rw [found] at current
      cases current
      obtain ⟨now, newer, beyond⟩ := replaces queued ruled v.real.queue
      exact .inr ⟨queued, _, now, newer, beyond, fun _ => terminal_of_ruling ruled last⟩

theorem Moves.waiting {key : Job.Key} (moved : Moves policy id i op v v')
    (waits : v.real.queue.isWaiting key = true) : v'.real.queue.isWaiting key = true := by
  cases moved with
  | pushed due first own => exact Queue.isWaiting_push_of_waiting waits _
  | _ => exact waits

theorem pusher_of_others (others : (view policy id).Others me v v') (own : v'.pusher = some me) :
    v.pusher = some me := by
  obtain ⟨i, op, other, moved⟩ := others
  cases moved with
  | idle => exact own
  | pushed due first key => exact absurd (Option.some.inj own) other
  | retried found queued ruled retry pushed => cases own
  | ended found queued ruled last => exact own

theorem Ended.moves (plain : policy.jitter = false) (h : Ended id v)
    (moved : Moves policy id i op v v') : Ended id v' := by
  obtain ⟨n, found, terminal⟩ := h
  rcases moved.record plain found with same | ⟨queued, _⟩
  · exact ⟨n, same, terminal⟩
  · exact absurd queued (Status.ne_queued terminal)

theorem stable (plain : policy.jitter = false) (id : Uuid) : (view policy id).Stable := by
  intro me call v v' closes others own
  obtain ⟨stale, ended⟩ := closes (pusher_of_others others own)
  obtain ⟨i, op, _, moved⟩ := others
  exact ⟨stale, ended.moves plain moved⟩

/-- The call may begin a try. -/
structure Opening (policy : Retry.Policy) (id : Uuid) (me : Nat) (v : Race) : Prop where
  linked : Linked policy id v
  excused : v.pusher = some me → Ended id v

theorem Opening.others (plain : policy.jitter = false) (h : Opening policy id me v)
    (others : (view policy id).Others me v v') : Opening policy id me v' := by
  have back := pusher_of_others others
  obtain ⟨i, op, _, moved⟩ := others
  exact ⟨h.linked.moves plain moved, fun own => (h.excused (back own)).moves plain moved⟩

def Passed (id : Uuid) (attempt : Nat) (v : Race) : Prop :=
  ∃ n, v.real.store.find? id = some n ∧ Beyond attempt n

theorem Passed.moves (plain : policy.jitter = false) (h : Passed id attempt v)
    (moved : Moves policy id i op v v') : Passed id attempt v' := by
  obtain ⟨n, found, beyond⟩ := h
  rcases moved.record plain found with same | ⟨queued, next, now, _, further, _⟩
  · exact ⟨n, same, beyond⟩
  · exact ⟨next, now, beyond.trans queued further⟩

/-- The call has read that record, which waited for an attempt: it is still there, or it was
replaced and its retry job, if one was due, either waits on the side of the calls one after another
or is the candidate yet. -/
structure Read (policy : Retry.Policy) (id : Uuid) (cur : Notification) (v : Race) : Prop where
  linked : Linked policy id v
  own : cur.id = id
  queued : cur.status = .queued
  since : v.real.store.find? id = some cur ∨ ∃ n, v.real.store.find? id = some n ∧
    cur.version < n.version ∧ Beyond cur.attemptCount n
  known : ∀ job, retryJob? policy cur v.real.clock = some job →
    v.serial.queue.isWaiting job.key = true ∨ v.candidate = some job

theorem Linked.read (h : Linked policy id v) (found : v.real.store.find? id = some cur)
    (queued : cur.status = .queued) : Read policy id cur v :=
  ⟨h, Store.id_of_find? found, queued, .inl found,
    fun _ due => .inr ((h.waits cur found queued).trans due)⟩

theorem Read.moves (plain : policy.jitter = false) (h : Read policy id cur v)
    (moved : Moves policy id i op v v') : Read policy id cur v' := by
  refine ⟨h.linked.moves plain moved, h.own, h.queued, ?_, ?_⟩
  · rcases h.since with found | ⟨n, found, newer, beyond⟩
    · rcases moved.record plain found with same | ⟨_, next, now, newer, beyond, _⟩
      · exact .inl same
      · exact .inr ⟨next, now, newer, beyond⟩
    · rcases moved.record plain found with same | ⟨queued, next, now, later, further, _⟩
      · exact .inr ⟨n, same, newer, beyond⟩
      · exact .inr ⟨next, now, Int.lt_trans newer later, beyond.trans queued further⟩
  · intro job due
    rw [moved.clock] at due
    have known := h.known job due
    cases moved with
    | idle => exact known
    | pushed due first own => exact known
    | ended found queued ruled last => exact known
    | retried found queued ruled retry pushed =>
        rcases known with waits | candidate
        · exact .inl (Queue.isWaiting_push_of_waiting waits _)
        · -- the candidate is the job that is pushed now
          have same := retryJob?_of_ruling ruled retry
          rw [← h.linked.waits _ found queued, candidate] at same
          cases same
          exact .inl (Queue.isWaiting_push _ _)

/-- The call has done what it does before its write. -/
def Ready (id : Uuid) (me : Nat) (cur : Notification) (ruling : Ruling) (v : Race) : Prop :=
  match ruling.retry with
  | none => v.pusher ≠ some me
  | some (job, _) => v.real.queue.isWaiting job.key = true ∧
    (v.pusher = some me → v.real.store.find? id = some cur ∨ Ended id v)

theorem Ready.others (plain : policy.jitter = false) (h : Ready id me cur ruling v)
    (others : (view policy id).Others me v v') : Ready id me cur ruling v' := by
  unfold Ready at h ⊢
  have back := pusher_of_others others
  split at h
  · exact fun own => h (back own)
  · obtain ⟨waits, owed⟩ := h
    obtain ⟨i, op, _, moved⟩ := others
    refine ⟨moved.waiting waits, fun own => ?_⟩
    rcases owed (back own) with found | ended
    · rcases moved.record plain found with same | ⟨_, next, now, _, _, terminal⟩
      · exact .inl same
      · exact .inr ⟨next, now, terminal (by rw [own]; exact Option.some_ne_none me)⟩
    · exact .inr (ended.moves plain moved)

theorem Read.others (plain : policy.jitter = false) (h : Read policy id cur v)
    (others : (view policy id).Others me v v') : Read policy id cur v' := by
  obtain ⟨i, op, _, moved⟩ := others
  exact h.moves plain moved

theorem aside_of_others (aside : v.pusher ≠ some me)
    (others : Relation.ReflTransGen ((view policy id).Others me) v v') : v'.pusher ≠ some me :=
  kept_of_steps (P := fun v => v.pusher ≠ some me)
    (fun _ _ aside other own => aside (pusher_of_others other own)) aside others

theorem clock_of_others (others : Relation.ReflTransGen ((view policy id).Others me) v v') :
    v'.real.clock = v.real.clock := by
  refine kept_of_steps (P := fun v' => v'.real.clock = v.real.clock) ?_ rfl others
  rintro a b same ⟨_, _, _, moved⟩
  rw [moved.clock, same]

theorem Ready.excused (h : Ready id me cur ruling v) (replaced : v.real.store.find? id ≠ some cur)
    (own : v.pusher = some me) : Ended id v := by
  unfold Ready at h
  split at h
  · exact absurd own h
  · exact (h.2 own).resolve_left replaced

/-- What a run says of a view: which call pushed the candidate, and which one ended the delivery
while it waited for the attempt before the candidate's. -/
structure Traced (policy : Retry.Policy) (id : Uuid) (ops : List Operation) (v : Race) : Prop where
  linked : Linked policy id v
  pusher : ∀ i, v.pusher = some i → ∃ attempt message job,
    ops[i]? = some (.record id attempt (.transient message)) ∧ v.candidate = some job ∧
      job.key = (id, attempt + 1)
  last : Ended id v → ∀ job, v.candidate = some job → ∃ attempt outcome,
    .record id attempt outcome ∈ ops ∧ job.key = (id, attempt + 1) ∧
      ∀ message, outcome ≠ .transient message

theorem Traced.moves {ops : List Operation} (plain : policy.jitter = false)
    (h : Traced policy id ops v) (call : ops[i]? = some op) (moved : Moves policy id i op v v') :
    Traced policy id ops v' := by
  have linked := h.linked.moves plain moved
  cases moved with
  | idle => exact h
  | @pushed attempt message _ job due first own =>
      refine ⟨linked, ?_, h.last⟩
      rintro _ ⟨⟩
      exact ⟨attempt, message, job, call, due, own⟩
  | retried found queued ruled retry pushed =>
      refine ⟨linked, fun _ own => (nomatch own), ?_⟩
      rintro ⟨n, there, terminal⟩
      rw [find?_replaced plain found ruled] at there
      cases there
      have again := (retried_of_ruling ruled retry).1.trans queued
      exact absurd again (Status.ne_queued terminal)
  | @ended outcome _ cur ruling found queued ruled last =>
      refine ⟨linked, h.pusher, fun _ job candidate => ?_⟩
      have due := h.linked.waits cur found queued
      rw [show v.candidate = some job from candidate] at due
      refine ⟨_, outcome, List.mem_of_getElem? call, ?_, not_transient_of_last ruled last due.symm⟩
      rw [(retryJob?_eq_some due.symm).2.1, Store.id_of_find? found]

/-- The view with which a run begins. -/
def start (policy : Retry.Policy) (id : Uuid) (b : Backend) : Race where
  real := b
  serial := b
  candidate := (b.store.find? id).bind fun n =>
    if n.status = .queued then retryJob? policy n b.clock else none
  pusher := none

theorem traced_start {b : Backend} {ops : List Operation} (store : b.store.available = true)
    (queue : b.queue.available = true) : Traced policy id ops (start policy id b) := by
  refine ⟨⟨rfl, rfl, store, queue, queue, ?_, .inl ⟨rfl, rfl⟩⟩, fun _ own => (nomatch own), ?_⟩
  · intro n found queued
    have found : b.store.find? id = some n := found
    simp [start, found, queued]
  · rintro ⟨n, found, terminal⟩ job candidate
    have found : b.store.find? id = some n := found
    simp [start, found, Status.ne_queued terminal] at candidate

theorem Traced.of_trace {ops : List Operation} {v₀ : Race} (plain : policy.jitter = false)
    (h : Traced policy id ops v₀) (trace : (view policy id).Trace ops v₀ v) :
    Traced policy id ops v := by
  induction trace with
  | refl => exact h
  | tail _ step ih =>
      obtain ⟨i, op, call, moved⟩ := step
      exact ih.moves plain call moved

theorem opening_of_start {b : Backend} (plain : policy.jitter = false)
    (store : b.store.available = true) (queue : b.queue.available = true)
    (others : Relation.ReflTransGen ((view policy id).Others me) (start policy id b) v) :
    Opening policy id me v := by
  have first : Traced policy id [] (start policy id b) := traced_start store queue
  exact kept_of_steps (fun _ _ h => h.others plain) ⟨first.linked, fun own => (nomatch own)⟩ others

end Race
end Courier
