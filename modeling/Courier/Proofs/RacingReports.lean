import Courier.Proofs.Race

namespace Courier

open Prog Service

namespace Race

variable {policy : Retry.Policy} {id : Uuid} {me : Nat} {v : Race} {cur n : Notification}
  {job : Job} {ruling : Ruling} {outcome : Outcome} {attempt : Nat}

/-- The write of a record that is still there: the call takes effect, and the push is answered
for. -/
theorem Read.write (read : Read policy id cur v)
    (ready : Ready id me cur ruling v) (found : v.real.store.find? id = some cur)
    (within : ¬ Notification.attemptLimit ≤ cur.attemptCount + 1)
    (ruled : ruling? policy cur v.real.clock outcome = some ruling) :
    ∃ v'', v''.real = replaced v.real cur ruling v.real.queue ∧
      Moves policy id me (.record id cur.attemptCount outcome) v v'' ∧ v''.pusher ≠ some me ∧
      alone policy id cur.attemptCount outcome v.serial =
        (.done (.ok (ruling.wrap (Store.merged cur ruling.next))), v''.serial) := by
  have linked := read.linked
  have seen : v.serial.store.find? id = some cur := by rw [linked.stores, found]
  have ruled' : ruling? policy cur v.serial.clock outcome =
      some ruling := by rw [linked.clocks, ruled]
  unfold Ready at ready
  split at ready
  · rename_i last
    refine ⟨_, rfl, .ended found read.queued ruled last, ready, ?_⟩
    simp [alone, seen, read.queued, within, ruled', last, replaced]
  · rename_i job event retry
    have due := retryJob?_of_ruling ruled retry
    have pushed : v.real.queue = v.serial.queue.push job := by
      rcases linked.queues with ⟨_, same⟩ | ⟨i, candidate, _, given, pushed⟩
      · rw [← same, Queue.push_of_waiting ready.1]
      · rw [linked.waits cur found read.queued, due] at given
        cases given
        exact pushed
    refine ⟨_, rfl, .retried found read.queued ruled retry pushed, fun own => (nomatch own), ?_⟩
    simp [alone, seen, read.queued, within, ruled', retry, replaced]

theorem Linked.waiting {key : Job.Key} (h : Linked policy id v)
    (waits : v.serial.queue.isWaiting key = true) : v.real.queue.isWaiting key = true := by
  rcases h.queues with ⟨_, same⟩ | ⟨i, candidate, _, _, pushed⟩
  · rw [same]
    exact waits
  · rw [pushed]
    exact Queue.isWaiting_push_of_waiting waits _

theorem Read.push (read : Read policy id cur v) (aside : v.pusher ≠ some me) {event : Event}
    (ruled : ruling? policy cur v.real.clock outcome = some ruling)
    (retry : ruling.retry = some (job, event)) :
    ∃ v'', v''.real = { v.real with queue := v.real.queue.push job } ∧ v''.serial = v.serial ∧
      Moves policy id me (.record id cur.attemptCount outcome) v v'' ∧
      Ready id me cur ruling v'' := by
  obtain ⟨message, rfl⟩ := transient_of_retry ruled retry
  have linked := read.linked
  have due := retryJob?_of_ruling ruled retry
  have key := (retryJob?_eq_some due).2.1
  unfold Ready
  simp only [retry]
  by_cases waits : v.real.queue.isWaiting job.key = true
  · refine ⟨v, ?_, rfl, .idle, waits, fun own => absurd own aside⟩
    rw [Queue.push_of_waiting waits]
  · have candidate : v.candidate = some job :=
      (read.known job due).resolve_left fun before => waits (linked.waiting before)
    have first : v.pusher = none := by
      rcases linked.queues with ⟨none, _⟩ | ⟨i, given, _, same, pushed⟩
      · exact none
      · rw [candidate] at same
        cases same
        rw [pushed] at waits
        exact absurd (Queue.isWaiting_push _ _) waits
    refine
      ⟨{ v with real := { v.real with queue := v.real.queue.push job }, pusher := some me }, rfl,
        rfl, .pushed candidate first (by rw [key, read.own]), Queue.isWaiting_push _ _, ?_⟩
    intro _
    rcases read.since with found | ⟨n, found, _, terminal | ⟨queued, more⟩⟩
    · exact .inl found
    · exact .inr ⟨n, found, terminal⟩
    · -- the candidate would be the job for a later attempt
      have later := linked.waits n found queued
      rw [candidate] at later
      have same := (retryJob?_eq_some later.symm).2.1
      rw [key] at same
      have equal := (Prod.mk.inj same).2
      omega

theorem Linked.takes (plain : policy.jitter = false) (h : Linked policy id v)
    {final : Prog (Except Error Recorded)} {b : Backend}
    (finished : Call.isOver ⟨.record id attempt outcome, final⟩ = true)
    (comes : alone policy id attempt outcome v.serial = (final, b)) :
    View.Effect (.record id attempt outcome) (record policy id attempt outcome) v.serial none
      (some final) b := by
  obtain ⟨conv, course⟩ : ∃ conv, (record policy id attempt outcome).Goes .still v.serial conv
      (alone policy id attempt outcome v.serial).1 (alone policy id attempt outcome v.serial).2 :=
    record_alone plain (h.stores ▸ h.storeUp) h.serialUp
  rw [comes] at course
  exact .now finished course

theorem Opening.stale (plain : policy.jitter = false) (h : Opening policy id me v)
    (found : v.real.store.find? id = some n)
    (moved : ¬(n.status = .queued ∧ n.attemptCount = attempt)) :
    View.Effect (.record id attempt outcome) (record policy id attempt outcome) v.serial none
        (some (.done (.ok (.stale n)))) v.serial ∧
      (view policy id).closes me ⟨.record id attempt outcome, .done (.ok (.stale n))⟩ v := by
  refine ⟨h.linked.takes plain rfl ?_, fun own => ⟨rfl, h.excused own⟩⟩
  have seen : v.serial.store.find? id = some n := by rw [h.linked.stores, found]
  simp only [alone, seen, if_neg moved]

theorem Opening.settles (plain : policy.jitter = false) (h : Opening policy id me v) (tries : Nat)
    (current : ∀ v' cur, Relation.ReflTransGen ((view policy id).Others me) v v' →
      Read policy id cur v' → v'.pusher ≠ some me → v'.real.store.find? id = some cur →
      cur.attemptCount = attempt → ∃ effect,
      View.Effect (.record id attempt outcome) (record policy id attempt outcome) v'.serial none
        effect v'.serial ∧ (view policy id).Settles me (.record id attempt outcome)
          (record policy id attempt outcome)
            (tryOn policy cur outcome (recordIn policy id attempt outcome tries)) effect v') :
    (view policy id).Settles me (.record id attempt outcome) (record policy id attempt outcome)
      (recordIn policy id attempt outcome (tries + 1)) none v := by
  intro v' others c step answered
  have h := kept_of_steps (fun _ _ h => h.others plain) h others
  have read : ((view policy id).real v').store.get id = .ok (v'.real.store.find? id) :=
    if_pos h.linked.storeUp
  cases answered
  simp only [Backend.reading, read]
  cases found : v'.real.store.find? id with
  | none =>
      refine ⟨v', _, rfl, .idle, h.linked.takes plain rfl ?_, rfl, fun own => ?_⟩
      · have seen : v'.serial.store.find? id = none := by rw [h.linked.stores, found]
        simp only [alone, seen]
        rfl
      · obtain ⟨n, there, _⟩ := h.excused own
        rw [found] at there
        cases there
  | some cur =>
      by_cases due : cur.status = .queued ∧ cur.attemptCount = attempt
      · have aside : v'.pusher ≠ some me := by
          intro own
          obtain ⟨n, there, terminal⟩ := h.excused own
          rw [found] at there
          cases there
          exact Status.ne_queued terminal due.1
        obtain ⟨effect, effects, rest⟩ :=
          current v' cur others (h.linked.read found due.1) aside found due.2
        refine ⟨v', effect, rfl, .idle, effects, ?_⟩
        show (view policy id).Settles _ _ _ (if _ then _ else _) _ _
        rw [if_pos due]
        exact rest
      · refine ⟨v', _, rfl, .idle, (h.stale plain found due).1, ?_⟩
        show (view policy id).Settles _ _ _ (if _ then _ else _) _ _
        rw [if_neg due]
        exact ⟨rfl, (h.stale plain found due).2⟩

theorem Opening.late (plain : policy.jitter = false) (h : Opening policy id me v)
    (passed : Passed id attempt v) (tries : Nat) :
    (view policy id).Settles me (.record id attempt outcome) (record policy id attempt outcome)
      (recordIn policy id attempt outcome (tries + 1)) none v := by
  apply h.settles plain tries
  intro v' cur others read _ found same
  have passed : Passed id attempt v' := by
    refine kept_of_steps (fun _ _ passed others => ?_) passed others
    obtain ⟨_, _, _, moved⟩ := others
    exact passed.moves plain moved
  obtain ⟨n, there, beyond⟩ := passed
  rw [found] at there
  cases there
  rcases beyond with terminal | ⟨_, more⟩
  · exact absurd read.queued (Status.ne_queued terminal)
  · omega

/-- The write: the call takes effect with it, or it comes too late and the attempt has been dealt
with. -/
theorem Read.writes (plain : policy.jitter = false) (read : Read policy id cur v)
    (ready : Ready id me cur ruling v) (within : ¬ Notification.attemptLimit ≤ cur.attemptCount + 1)
    (ruled : ruling? policy cur v.real.clock outcome = some ruling) (tries : Nat) :
    (view policy id).Settles me (.record id cur.attemptCount outcome)
      (record policy id cur.attemptCount outcome)
      (writeOn ruling.next ruling.wrap (recordIn policy id cur.attemptCount outcome (tries + 1)))
      none v := by
  intro v' others c step answered
  have read := kept_of_steps (fun _ _ h => h.others plain) read others
  have ready := kept_of_steps (P := Ready id me cur ruling) (fun _ _ h =>
      h.others plain) ready others
  rw [← clock_of_others others] at ruled
  have reported := reported_of_ruling plain ruled
  have own : ruling.next.id = id := reported.id_eq.trans read.own
  cases answered
  rcases read.since with found | ⟨n, found, newer, beyond⟩
  · obtain ⟨v'', real, moved, answered, comes⟩ := read.write ready found within ruled
    have updated : v'.real.store.update ruling.next = .ok (Store.merged cur ruling.next,
        v'.real.store.put (Store.merged cur ruling.next)) :=
      Store.update_of_current read.linked.storeUp (own ▸ found) reported.version_eq.symm
    refine ⟨v'', _, ?_, moved, read.linked.takes plain rfl comes, ?_⟩
    · show v''.real = (v'.real.update ruling.next).backend
      rw [real, Backend.update, updated]
      rfl
    · show (view policy id).Settles _ _ _
          (Prog.bind (.done (v'.real.update ruling.next).reply) _) _ _
      rw [Backend.update, updated]
      exact View.settles_noteAll ⟨rfl, fun own => absurd own answered⟩
  · -- another write was first: the next try will find that the attempt has been dealt with
    have changed : v'.real.store.update ruling.next =
        .error (.versionChanged ruling.next.id ruling.next.version n.version) := by
      refine Store.update_of_changed read.linked.storeUp (own ▸ found) ?_
      rw [reported.version_eq]
      exact Int.ne_of_gt newer
    have replaced : v'.real.store.find? id ≠ some cur := by
      intro there
      rw [found] at there
      cases there
      exact Int.lt_irrefl _ newer
    refine ⟨v', none, ?_, .idle, .none, ?_⟩
    · show v'.real = (v'.real.update ruling.next).backend
      rw [Backend.update, changed]
    · show (view policy id).Settles _ _ _
          (Prog.bind (.done (v'.real.update ruling.next).reply) _) _ _
      rw [Backend.update, changed]
      exact Opening.late plain ⟨read.linked, ready.excused replaced⟩ ⟨n, found, beyond⟩ tries

theorem Read.breaks (aside : v.pusher ≠ some me) {again : Prog (Except Error Recorded)}
    {whole : Prog (Except Error Recorded)} (plain : policy.jitter = false)
    (broken : Notification.attemptLimit ≤ cur.attemptCount + 1 ∨
      ruling? policy cur v.real.clock outcome = none) :
    (view policy id).Settles me (.record id attempt outcome) whole (tryOn policy cur outcome again)
      (some .abort) v := by
  intro v' others c step answered
  cases answered
  refine ⟨v', some .abort, rfl, .idle, .none, ?_⟩
  show (view policy id).Settles _ _ _ (if _ then _ else _) _ _
  have closes : (view policy id).closes me ⟨.record id attempt outcome, .abort⟩ v' :=
    fun own => absurd own (aside_of_others aside others)
  split
  · exact ⟨rfl, closes⟩
  · rename_i within
    have none := broken.resolve_left within
    rw [← clock_of_others others] at none
    show (view policy id).Settles _ _ _ (applied policy cur outcome v'.real.clock >>= _) _ _
    rw [applied_of_plain plain, none]
    exact ⟨rfl, closes⟩

theorem Read.tries (plain : policy.jitter = false) (read : Read policy id cur v)
    (aside : v.pusher ≠ some me) (within : ¬ Notification.attemptLimit ≤ cur.attemptCount + 1)
    (ruled : ruling? policy cur v.real.clock outcome = some ruling) (tries : Nat) :
    (view policy id).Settles me (.record id cur.attemptCount outcome)
      (record policy id cur.attemptCount outcome)
      (tryOn policy cur outcome (recordIn policy id cur.attemptCount outcome (tries + 1)))
        none v := by
  intro v' others c step answered
  cases answered
  have read := kept_of_steps (fun _ _ h => h.others plain) read others
  have aside := aside_of_others aside others
  rw [← clock_of_others others] at ruled
  refine ⟨v', none, rfl, .idle, .none, ?_⟩
  show (view policy id).Settles _ _ _ (if _ then _ else _) _ _
  rw [if_neg within]
  show (view policy id).Settles _ _ _ (applied policy cur outcome v'.real.clock >>= _) _ _
  rw [applied_of_plain plain, ruled]
  cases retry : ruling.retry with
  | none =>
      have ready : Ready id me cur ruling v' := by
        unfold Ready
        rw [retry]
        exact aside
      have settles := read.writes plain ready within ruled tries
      show (view policy id).Settles _ _ _ (ruling.prepared cur.id >>= _) _ _
      unfold Ruling.prepared
      rw [retry]
      exact settles
  | some pushed =>
      obtain ⟨job, event⟩ := pushed
      show (view policy id).Settles _ _ _ (ruling.prepared cur.id >>= _) _ _
      unfold Ruling.prepared
      rw [retry]
      -- the others may move before the push, and between the push and the write
      intro v₁ others c step answered
      have read := kept_of_steps (fun _ _ h => h.others plain) read others
      have aside := aside_of_others aside others
      rw [← clock_of_others others] at ruled
      obtain ⟨v₂, real, serial, moved, ready⟩ := read.push aside ruled retry
      have pushed : v₁.real.queue.enqueue job = .ok (v₁.real.queue.push job) :=
        if_pos read.linked.queueUp
      have clock : v₂.real.clock = v₁.real.clock := by rw [real]
      rw [← clock] at ruled
      have settles := (read.moves plain moved).writes plain ready within ruled tries
      cases answered
      refine ⟨v₂, none, ?_, moved, ?_, ?_⟩
      · show v₂.real = (v₁.real.enqueue job).backend
        rw [real, Backend.enqueue, pushed]
      · show View.Effect _ _ _ _ _ v₂.serial
        rw [serial]
        exact .none
      · show (view policy id).Settles _ _ _
          (Prog.bind (Prog.bind (.done (v₁.real.enqueue job).reply) _) _) _ _
        rw [Backend.enqueue, pushed]
        exact settles

/-- A report takes effect with its write, or when it finds that it has nothing to write. -/
theorem record_settles (plain : policy.jitter = false) (h : Opening policy id me v) :
    (view policy id).Settles me (.record id attempt outcome) (record policy id attempt outcome)
      (record policy id attempt outcome) none v := by
  apply h.settles plain 4
  rintro v' cur _ read aside found rfl
  have seen : v'.serial.store.find? id = some cur := by rw [read.linked.stores, found]
  by_cases spent : Notification.attemptLimit ≤ cur.attemptCount + 1
  · refine ⟨some .abort, read.linked.takes plain rfl ?_, Read.breaks aside plain (.inl spent)⟩
    simp [alone, seen, read.queued, spent]
  · cases ruled : ruling? policy cur v'.real.clock outcome with
    | none =>
        refine ⟨some .abort, read.linked.takes plain rfl ?_, Read.breaks aside plain (.inr ruled)⟩
        simp [alone, seen, read.queued, spent, read.linked.clocks, ruled]
    | some ruling =>
        exact ⟨none, .none, read.tries plain aside spent ruled 3⟩

end Race

def Operation.reportsOn (id : Uuid) : Operation → Bool
  | .record other _ _ => other == id
  | _ => false

theorem Operation.eq_record_of_reportsOn {id : Uuid} {op : Operation} (h : op.reportsOn id = true) :
    ∃ attempt outcome, op = .record id attempt outcome := by
  cases op with
  | record other attempt outcome =>
      obtain rfl := eq_of_beq h
      exact ⟨attempt, outcome, rfl⟩
  | _ => cases h

namespace Pipeline

/-- The job for the next attempt is left of a report that the attempt has failed: it was pushed, but
another report brought the delivery to an end, and the first one was stale. -/
structure Leftover (s : Pipeline) (id : Uuid) (attempt : Nat) (job : Job) : Prop where
  key : job.key = (id, attempt + 1)
  late : ∃ call ∈ s.calls, (∃ message, call.op = .record id attempt (.transient message)) ∧
    call.isStale = true
  last : ∃ call ∈ s.calls, ∃ outcome, call.op = .record id attempt outcome ∧
    ∀ message, outcome ≠ .transient message
  ended : ∃ n, s.backend.store.find? id = some n ∧ n.status.isTerminal = true

variable {d : Deployment} {id : Uuid} {b : Backend} {moves : List Move} {s : Pipeline}

theorem queue_of_traced {v : Race} (real : v.real = s.backend)
    (traced : Race.Traced d.policy id (s.calls.map Call.op) v)
    (closes : ∀ (i : Nat) (call : Call), s.calls[i]? = some call →
      (Race.view d.policy id).closes i call v) :
    s.backend.queue = v.serial.queue ∨
      ∃ attempt job, s.Leftover id attempt job ∧ s.backend.queue = v.serial.queue.push job := by
  rw [← real]
  rcases traced.linked.queues with ⟨_, same⟩ | ⟨i, job, pusher, candidate, queue⟩
  · exact .inl same
  · obtain ⟨attempt, message, pushed, asked, same, key⟩ := traced.pusher i pusher
    rw [candidate] at same
    cases same
    rw [List.getElem?_map] at asked
    obtain ⟨late, found, asked⟩ := Option.map_eq_some_iff.mp asked
    obtain ⟨stale, ended⟩ := closes i late found pusher
    obtain ⟨attempt', outcome, began, key', last⟩ := traced.last ended job candidate
    rw [key] at key'
    cases key'
    obtain ⟨winner, mem, reported⟩ := List.mem_map.mp began
    obtain ⟨n, there, terminal⟩ := ended
    refine .inr ⟨attempt, job, ⟨key, ⟨late, List.mem_of_getElem? found, ⟨message, asked⟩, stale⟩,
      ⟨winner, mem, outcome, reported, last⟩, n, ?_, terminal⟩, queue⟩
    rw [← real, there]

/-- Reports on one notification, however they interleave, come to the same as if they were made one
after another: the same answers, the same record and the same queue, but for a job that may be left
over. -/
theorem reports_serialize (plain : d.policy.jitter = false) (store : b.store.available = true)
    (queue : b.queue.available = true)
    (run : (opening b).run? d (calling (Operation.reportsOn id)) moves = some s)
    (idle : s.isIdle = true) :
    ∃ order b', order.Perm s.calls ∧ Serially d order b b' ∧ s.backend.store = b'.store ∧
      (s.backend.queue = b'.queue ∨
        ∃ attempt job, s.Leftover id attempt job ∧ s.backend.queue = b'.queue.push job) := by
  have settles (me : Nat) (op : Operation) (v : Race) (may : op.reportsOn id = true)
      (others : Relation.ReflTransGen ((Race.view d.policy id).Others me)
        (Race.start d.policy id b) v) :
      (Race.view d.policy id).Settles me op (op.program d) (op.program d) none v := by
    obtain ⟨attempt, outcome, rfl⟩ := Operation.eq_record_of_reportsOn may
    exact Race.record_settles plain (Race.opening_of_start plain store queue others)
  have start : (Race.view d.policy id).real (Race.start d.policy id b) =
      (Race.view d.policy id).serial (Race.start d.policy id b) := rfl
  obtain ⟨v, order, real, trace, serial, perm, closes⟩ :=
    serializes (Race.stable plain id) start settles run idle
  have traced : Race.Traced d.policy id (s.calls.map Call.op) v :=
    (Race.traced_start store queue).of_trace plain trace
  refine ⟨order, v.serial, perm, serial, ?_, queue_of_traced real traced closes⟩
  rw [traced.linked.stores, ← real]
  rfl

namespace Sample

/-- Two calls report on the first attempt, both that it has failed. Both push the retry job before
either of them writes. -/
def tied : List Move :=
  [.begin (.record Sample.id 0 (.transient "busy")),
    .begin (.record Sample.id 0 (.transient "slow"))] ++ [0, 1, 0, 1, 0, 1, 0, 1, 1].map advance

/-- Two calls report on the first attempt. One pushes the retry job; the other one reports success
and writes first. -/
def beaten : List Move :=
  [.begin (.record Sample.id 0 (.transient "busy")), .begin (.record Sample.id 0 .success)] ++
    [0, 0, 0, 1, 1, 1, 0, 0].map advance

end Sample

/-- Two reports that both push the retry job come to one retry, as if one of them had come after the
other. -/
theorem reports_serialize_when_tied : ∃ s,
    (opening Sample.created).run? Sample.deployment (calling (Operation.reportsOn Sample.id))
        Sample.tied = some s ∧
      s.isIdle = true ∧ s.backend.queue.liveJobs.map Job.key = [(Sample.id, 0), (Sample.id, 1)] ∧
      ∃ order b', order.Perm s.calls ∧ Serially Sample.deployment order Sample.created b' ∧
        s.backend.store = b'.store ∧ s.backend.queue = b'.queue := by
  have run : ∃ s, (opening Sample.created).run? Sample.deployment
      (calling (Operation.reportsOn Sample.id)) Sample.tied = some s ∧
        s.isIdle = true ∧ s.backend.queue.liveJobs.map Job.key = [(Sample.id, 0), (Sample.id, 1)] ∧
        s.calls.map Call.op =
          [.record Sample.id 0 (.transient "busy"), .record Sample.id 0 (.transient "slow")] :=
    ⟨_, rfl, rfl, rfl, rfl⟩
  obtain ⟨s, run, idle, live, ops⟩ := run
  obtain ⟨order, b', perm, serial, stores, queues⟩ := reports_serialize rfl rfl rfl run idle
  refine ⟨s, run, idle, live, order, b', perm, serial, stores, ?_⟩
  rcases queues with same | ⟨attempt, job, left, _⟩
  · exact same
  · -- neither report brings the delivery to an end
    obtain ⟨call, mem, outcome, reported, last⟩ := left.last
    have transient : ∀ op ∈ s.calls.map Call.op,
        ∃ message, op = .record Sample.id 0 (.transient message) := by
      rw [ops]
      simp
    obtain ⟨message, same⟩ := transient _ (List.mem_map.mpr ⟨call, mem, reported⟩)
    cases same
    exact absurd rfl (last message)

end Pipeline

/-- The call was a report for which a retry was scheduled. -/
def Call.isRetry : Call → Bool
  | ⟨.record _ _ _, .done (.ok (.retryScheduled _))⟩ => true
  | _ => false

theorem Service.alone_of_no_retry {policy : Retry.Policy} {id : Uuid} {attempt : Nat}
    {outcome : Outcome} {b b' : Backend} {final : Prog (Except Error Recorded)}
    (h : (final, b') = alone policy id attempt outcome b)
    (other : Call.isRetry ⟨.record id attempt outcome, final⟩ = false) :
    b'.queue = b.queue ∧ b'.store.available = b.store.available := by
  unfold alone at h
  split at h
  · cases h
    exact ⟨rfl, rfl⟩
  · split at h
    · split at h
      · cases h
        exact ⟨rfl, rfl⟩
      · split at h
        · cases h
          exact ⟨rfl, rfl⟩
        · rename_i ruling ruled
          cases retry : ruling.retry with
          | none =>
              rw [retry] at h
              cases h
              exact ⟨rfl, rfl⟩
          | some pushed =>
              have wrap := (retried_of_ruling ruled retry).2.2
              rw [wrap] at h
              cases h
              cases other
    · cases h
      exact ⟨rfl, rfl⟩

/-- Reports one after another push nothing unless one of them says so. -/
theorem Serially.queue_eq {d : Deployment} {calls : List Call} {b b' : Backend}
    (h : Serially d calls b b') (id : Uuid) (plain : d.policy.jitter = false)
    (reports : ∀ call ∈ calls, call.op.reportsOn id = true ∧ call.isRetry = false)
    (store : b.store.available = true) (queue : b.queue.available = true) : b'.queue = b.queue := by
  induction h with
  | nil => rfl
  | @cons call calls b b' b'' conv finished alone later ih =>
      obtain ⟨op, rest⟩ := call
      obtain ⟨report, other⟩ := reports _ (List.mem_cons_self ..)
      obtain ⟨attempt, outcome, rfl⟩ := Operation.eq_record_of_reportsOn report
      obtain ⟨same, available⟩ :=
        Service.alone_of_no_retry (Service.eq_alone plain store queue alone finished) other
      rw [← same]
      exact ih (fun call mem => reports call (List.mem_cons_of_mem _ mem)) (available.trans store)
        (same ▸ queue)

namespace Pipeline

/-- The retry job of a stale report may be left where the same reports one after another, whatever
their order, leave no such job. -/
theorem stale_report_leaves_job : ∃ s,
    (opening Sample.created).run? Sample.deployment (calling (Operation.reportsOn Sample.id))
        Sample.beaten = some s ∧
      s.isIdle = true ∧
      ¬∃ order b', order.Perm s.calls ∧ Serially Sample.deployment order Sample.created b' ∧
        s.backend.store = b'.store ∧ s.backend.queue.liveJobs.Perm b'.queue.liveJobs := by
  have run : ∃ s, (opening Sample.created).run? Sample.deployment
      (calling (Operation.reportsOn Sample.id)) Sample.beaten = some s ∧
        s.isIdle = true ∧ s.backend.queue.liveJobs.length = 2 ∧
        s.calls.all (fun call => call.op.reportsOn Sample.id && !call.isRetry) = true :=
    ⟨_, rfl, rfl, rfl, rfl⟩
  obtain ⟨s, run, idle, two, answers⟩ := run
  refine ⟨s, run, idle, ?_⟩
  rintro ⟨order, b', perm, serial, _, live⟩
  have queue : b'.queue = Sample.created.queue := by
    refine serial.queue_eq Sample.id rfl (fun call mem => ?_) rfl rfl
    simpa using List.all_eq_true.mp answers call (perm.mem_iff.mp mem)
  have one : Sample.created.queue.liveJobs.length = 1 := rfl
  have equal := live.length_eq
  rw [queue, one, two] at equal
  cases equal

end Pipeline
end Courier
