import Courier.Backend
import Courier.Proofs.LiveJobs
import Courier.Proofs.Past

/-!
Histories of the queue: what its callers have asked of it, one indivisible access after another, and
what it has answered. The lists in a queue stand for collections without an order, so a run of the
queue may rearrange them at any time.
-/
namespace Courier.Queue

/-- What is asked of the queue. A call that waits for a job tries again and again, and each try is
an access of its own, with its own reading of the clock and a token that it uses if it gets a
job. -/
inductive Access where
  | enqueue (job : Job)
  | lease (now : Instant) (leaseFor : Duration) (token : Uuid)
  | ack (token : Uuid)
  | setAvailable (available : Bool)

inductive Answer where
  /-- The queue is not available. -/
  | refused
  /-- The job has been added, or one for its attempt was waiting already. -/
  | enqueued (added : Bool)
  | tried (attempt : Attempt)
  | acked (held : Bool)
  | switched

def serve (q : Queue) : Access → Answer × Queue
  | .enqueue job =>
    match q.enqueue job with
    | .ok after => (.enqueued !q.isWaiting job.key, after)
    | .error _ => (.refused, q)
  | .lease now leaseFor token =>
    if q.available then
      let (attempt, after) := q.tryLease now leaseFor token
      (.tried attempt, after)
    else (.refused, q)
  | .ack token =>
    match q.ack token with
    | .ok (held, after) => (.acked held, after)
    | .error _ => (.refused, q)
  | .setAvailable available => (.switched, { q with available })

structure Exchange where
  access : Access
  answer : Answer

/-- What was asked of the queue and answered, the oldest first. -/
abbrev History := List Exchange

namespace Exchange

def arrival? : Exchange → Option Job
  | ⟨.enqueue job, .enqueued true⟩ => some job
  | _ => none

def lease? : Exchange → Option Lease
  | ⟨_, .tried (.leased lease)⟩ => some lease
  | _ => none

end Exchange

namespace History

def arrivals (history : History) : List Job := history.filterMap Exchange.arrival?

def leases (history : History) : List Lease := history.filterMap Exchange.lease?

def tokens (history : History) : List Uuid := history.leases.map Lease.token

end History

/-- The same queue with its lists in another order. -/
structure Rearranged (q after : Queue) : Prop where
  nextSequence : after.nextSequence = q.nextSequence
  available : after.available = q.available
  waiting : after.waiting.Perm q.waiting
  leased : after.leased.Perm q.leased

/-- The queue comes to `after` by way of this history. -/
inductive Runs (q : Queue) : History → Queue → Prop
  | start : Runs q [] q
  | rearranged {history : History} {mid after : Queue} (runs : Runs q history mid)
      (same : Rearranged mid after) : Runs q history after
  | served {history : History} {mid after : Queue} {access : Access} {answer : Answer}
      (runs : Runs q history mid) (served : mid.serve access = (answer, after)) :
      Runs q (history ++ [⟨access, answer⟩]) after

/-- The answers to accesses that are served one after another, and the queue after them. -/
def replay (q : Queue) : List Access → History × Queue
  | [] => ([], q)
  | access :: rest =>
    let (answer, mid) := q.serve access
    let (history, after) := mid.replay rest
    (⟨access, answer⟩ :: history, after)

/-- All that serving an access can come to. -/
inductive Served (q : Queue) : Access → Answer → Queue → Prop
  | refused {access : Access} (down : q.available = false) : Served q access .refused q
  | waiting {job : Job} (waits : q.isWaiting job.key = true) :
      Served q (.enqueue job) (.enqueued false) q
  | added {job : Job} (absent : q.isWaiting job.key = false) :
      Served q (.enqueue job) (.enqueued true) (q.push job)
  | tried {now : Instant} {leaseFor : Duration} {token : Uuid} {attempt : Attempt} {after : Queue}
      (tried : Tried q now leaseFor token attempt after) :
      Served q (.lease now leaseFor token) (.tried attempt) after
  | acked {token : Uuid} :
      Served q (.ack token) (.acked (q.leased.any fun held => held.token == token))
        { q with leased := q.leased.filter fun held => held.token != token }
  | switched {available : Bool} :
      Served q (.setAvailable available) .switched { q with available }

variable {q mid after : Queue} {access : Access} {answer : Answer} {history rest : History}
  {exchange : Exchange} {job : Job} {lease : Lease}

theorem serve_served (q : Queue) (access : Access) :
    Served q access (q.serve access).1 (q.serve access).2 := by
  cases access with
  | enqueue job =>
      cases up : q.available with
      | false => simpa [serve, enqueue, up] using Served.refused up
      | true =>
          cases waits : q.isWaiting job.key with
          | true => simpa [serve, enqueue, up, push, waits] using Served.waiting waits
          | false => simpa [serve, enqueue, up, waits] using Served.added waits
  | lease now leaseFor token =>
      cases up : q.available with
      | false => simpa [serve, up] using Served.refused up
      | true => simpa [serve, up] using Served.tried (tryLease_tried q now leaseFor token)
  | ack token =>
      cases up : q.available with
      | false => simpa [serve, ack, up] using Served.refused up
      | true =>
          have acked : Served q (.ack token) _ _ := .acked
          simpa [serve, ack, up] using acked
  | setAvailable available => exact .switched

theorem served_of_serve (h : q.serve access = (answer, after)) : Served q access answer after := by
  have served := serve_served q access
  rw [h] at served
  exact served

/-- The backends answer the requests of programs as the queue serves them. -/
theorem serve_enqueue (b : Backend) (job : Job) : b.queue.serve (.enqueue job) =
    (match (b.enqueue job).reply with
      | .ok () => .enqueued (b.enqueue job).events.isEmpty
      | .error _ => .refused, (b.enqueue job).backend.queue) := by
  cases up : b.queue.available with
  | false => simp [serve, enqueue, Backend.enqueue, up]
  | true =>
      cases waits : b.queue.isWaiting job.key <;> simp [serve, enqueue, Backend.enqueue, up, waits]

theorem serve_lease (b : Backend) (leaseFor : Duration) :
    b.queue.serve (.lease b.clock leaseFor b.freshId.1) =
      (match (b.tryLease leaseFor).reply with
        | .ok attempt => .tried attempt
        | .error _ => .refused, (b.tryLease leaseFor).backend.queue) := by
  cases up : b.queue.available with
  | false => simp [serve, Backend.tryLease, up]
  | true => simp [serve, Backend.tryLease, up]

theorem serve_ack (b : Backend) (token : Uuid) : b.queue.serve (.ack token) =
    (match (b.ack token).reply with
      | .ok held => .acked held
      | .error _ => .refused, (b.ack token).backend.queue) := by
  cases up : b.queue.available with
  | false => simp [serve, ack, Backend.ack, up]
  | true => simp [serve, ack, Backend.ack, up]

theorem Rearranged.trans (first : Rearranged q mid) (second : Rearranged mid after) :
    Rearranged q after :=
  ⟨second.nextSequence.trans first.nextSequence, second.available.trans first.available,
    second.waiting.trans first.waiting, second.leased.trans first.leased⟩

theorem Rearranged.entries (h : Rearranged q after) : after.entries.Perm q.entries :=
  h.waiting.append (h.leased.map Held.entry)

theorem Rearranged.refl (q : Queue) : Rearranged q q := ⟨rfl, rfl, .refl _, .refl _⟩

theorem Runs.split (runs : Runs q (history ++ exchange :: rest) after) : ∃ asked left,
    Runs q history asked ∧ asked.serve exchange.access = (exchange.answer, left) ∧
      Runs left rest after := by
  generalize whole : history ++ exchange :: rest = joined at runs
  induction runs generalizing rest with
  | start => simp at whole
  | rearranged _ same ih =>
      obtain ⟨asked, left, before, answered, onward⟩ := ih whole
      exact ⟨asked, left, before, answered, onward.rearranged same⟩
  | served runs served ih =>
      rcases snoc_eq_split whole.symm with ⟨rfl, rfl, rfl⟩ | ⟨rest, rfl, rfl⟩
      · exact ⟨_, _, runs, served, .start⟩
      · obtain ⟨asked, left, before, answered, onward⟩ := ih rfl
        exact ⟨asked, left, before, answered, onward.served served⟩

theorem Runs.cons (served : q.serve access = (answer, mid)) (runs : Runs mid history after) :
    Runs q (⟨access, answer⟩ :: history) after := by
  induction runs with
  | start => exact .served .start served
  | rearranged _ same ih => exact ih.rearranged same
  | served _ next ih => exact ih.served next

theorem runs_of_replay {accesses : List Access} (replayed : q.replay accesses = (history, after)) :
    Runs q history after := by
  induction accesses generalizing q history with
  | nil =>
      cases replayed
      exact .start
  | cons access rest ih =>
      cases replayed
      exact .cons rfl (ih rfl)

theorem Runs.nil (runs : Runs q [] after) : Rearranged q after := by
  generalize whole : ([] : History) = joined at runs
  induction runs with
  | start => exact .refl q
  | rearranged _ same ih => exact (ih whole).trans same
  | served => simp at whole

theorem Runs.uncons (runs : Runs q (exchange :: rest) after) : ∃ asked left,
    Rearranged q asked ∧ asked.serve exchange.access = (exchange.answer, left) ∧
      Runs left rest after := by
  obtain ⟨asked, left, before, answered, onward⟩ := @Runs.split q after [] rest exchange runs
  exact ⟨asked, left, before.nil, answered, onward⟩

end Courier.Queue
