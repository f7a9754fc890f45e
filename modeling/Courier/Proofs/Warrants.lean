import Courier.Proofs.Keeping

/-!
What the calls of the pipeline keep to. A record is written for one of four reasons, and the writer
has in each case read a version of it that gives the reason. A worker releases a job only after it
has seen that its notification was not waiting for that attempt.
-/
namespace Courier

namespace Service

/-- The record with one more attempt used up. -/
def tried (policy : Retry.Policy) (cur : Notification) (time : Instant) : Notification :=
  { cur with updatedAt := time, attemptCount := attemptsAfter policy cur }

/-- What the report of an outcome makes of a queued record, and what the write of it means. -/
inductive Reported (policy : Retry.Policy) (cur : Notification) (time : Instant) :
    Outcome → Notification → (Notification → Recorded) → Prop
  | sent : Reported policy cur time .success
      { tried policy cur time with
        status := .sent
        sentAt := some time
        failedAt := none
        errorMessage := none
        nextRetryAt := none } .sent
  | refused {message : String} : Reported policy cur time (.permanent message)
      ({ tried policy cur time with attemptCount := policy.maxAttempts }.failedWith time message)
      .failed
  | exhausted {message : String} (spent : policy.maxAttempts ≤ attemptsAfter policy cur) :
      Reported policy cur time (.transient message)
        ((tried policy cur time).failedWith time
          s!"Failed after {attemptsAfter policy cur} attempts: {message}") .failed
  | retried {message : String} {extra : Nat} {delay : Duration} {retryAt : Instant}
      (left : attemptsAfter policy cur < policy.maxAttempts)
      (decided : policy.decide? (attemptsAfter policy cur) extra time =
        some (.retryAt delay retryAt)) :
      Reported policy cur time (.transient message)
        { tried policy cur time with errorMessage := some message, nextRetryAt := some retryAt }
        .retryScheduled

section

variable {policy : Retry.Policy} {cur next : Notification} {time : Instant} {outcome : Outcome}
  {wrap : Notification → Recorded}

theorem Reported.id_eq (h : Reported policy cur time outcome next wrap) : next.id = cur.id := by
  cases h <;> rfl

theorem Reported.version_eq (h : Reported policy cur time outcome next wrap) :
    next.version = cur.version := by
  cases h <;> rfl

end

def Recorded.isStale : Recorded → Bool
  | .stale _ => true
  | _ => false

end Service

namespace Operation

def Reports : Operation → Uuid → Nat → Outcome → Prop
  | record id attempt outcome, i, a, o => id = i ∧ attempt = a ∧ outcome = o
  | process lease, i, a, _ => lease.job.key = (i, a)
  | _, _, _, _ => False

def onlyReports : Operation → Bool
  | record _ _ _ => true
  | _ => false

def pushesFirst : Operation → Bool
  | enqueue _ | markQueued _ => false
  | _ => true

end Operation

namespace Past

/-- Before the clock read `time`, that version of the record was stored. -/
def Seen (past : Past) (cur : Notification) (time : Instant) : Prop :=
  ∃ (before : Past) (call : Nat), before ++ [.answered call .now time] <+: past ∧
    cur ∈ before.versions cur.id

/-- At some time after the call had first read the notification, `found` was the version stored
last. -/
def Saw (past : Past) (me : Nat) (id : Uuid) (found : Option Notification) : Prop :=
  ∃ (before : Past) (reply : Option Notification), before <+: past ∧
    .answered me (.get id) (.ok reply) ∈ before ∧ before.latest id = found

/-- At some time after the call had first read the notification, it was not waiting for that
attempt. -/
def Discharged (past : Past) (me : Nat) (id : Uuid) (attempt : Nat) : Prop :=
  ∃ found, past.Saw me id found ∧
    ∀ n, found = some n → ¬(n.status = .queued ∧ n.attemptCount = attempt)

/-- A job for the attempt has been put on the queue, or has been leased. -/
def Sought (past : Past) (key : Job.Key) : Prop :=
  past.Asked key ∨ ∃ lease ∈ past.leases, lease.job.key = key

/-- There has been a job for some pending version of the notification. -/
def Backed (past : Past) (id : Uuid) : Prop :=
  ∃ n ∈ past.versions id, n.status = .pending ∧ past.Sought (id, n.attemptCount)

variable {past now : Past} {cur n stored : Notification} {time : Instant} {me attempt : Nat}
  {id : Uuid} {found : Option Notification} {key : Job.Key}

theorem Seen.mono (h : past.Seen cur time) (grown : past <+: now) : now.Seen cur time := by
  obtain ⟨before, call, read, known⟩ := h
  exact ⟨before, call, read.trans grown, known⟩

theorem Seen.known (h : past.Seen cur time) : cur ∈ past.versions cur.id := by
  obtain ⟨before, call, read, known⟩ := h
  exact versions_subset ((List.prefix_append _ _).trans read) known

theorem Saw.mono (h : past.Saw me id found) (grown : past <+: now) : now.Saw me id found := by
  obtain ⟨before, reply, earlier, read, same⟩ := h
  exact ⟨before, reply, earlier.trans grown, read, same⟩

theorem Saw.known (h : past.Saw me id (some n)) : n ∈ past.versions id := by
  obtain ⟨before, reply, earlier, read, same⟩ := h
  exact versions_subset earlier (mem_versions_of_latest same)

theorem Saw.later (h : past.Saw me id found) (grown : past <+: now) (latest : now.latest id = n) :
    now.Saw me id n := by
  obtain ⟨before, reply, earlier, read, _⟩ := h
  exact ⟨now, reply, List.prefix_refl _, (earlier.trans grown).subset read, latest⟩

theorem Discharged.mono (h : past.Discharged me id attempt) (grown : past <+: now) :
    now.Discharged me id attempt := by
  obtain ⟨found, saw, other⟩ := h
  exact ⟨found, saw.mono grown, other⟩

theorem Saw.discharged (h : past.Saw me id (some n))
    (other : ¬(n.status = .queued ∧ n.attemptCount = attempt)) :
    past.Discharged me id attempt := by
  refine ⟨some n, h, fun m same => ?_⟩
  cases same
  exact other

theorem Sought.mono (h : past.Sought key) (grown : past <+: now) : now.Sought key := by
  rcases h with asked | ⟨lease, mem, same⟩
  · exact .inl (asked.mono grown)
  · exact .inr ⟨lease, (grown.filterMap _).subset mem, same⟩

theorem Backed.mono (h : past.Backed id) (grown : past <+: now) : now.Backed id := by
  obtain ⟨n, known, pending, sought⟩ := h
  exact ⟨n, versions_subset grown known, pending, sought.mono grown⟩

/-- A submission that was checked, as it is first stored. -/
inductive Submitted (past : Past) : Notification → Prop
  | create {id : Uuid} {s : Submission} {time : Instant} {call : Nat}
      (recipient : Recipient.validate s.channel s.recipient = .ok ())
      (payload : Payload.validate s.channel s.payload = .ok ())
      (read : .answered call .now time ∈ past) : Submitted past (Notification.create id s time)

theorem Submitted.mono (h : past.Submitted n) (grown : past <+: now) : now.Submitted n := by
  cases h with
  | create recipient payload read => exact .create recipient payload (grown.subset read)

/-- How the operation may rewrite a record of which it has seen the version `cur`, with the clock at
`time`. The last case takes back a reset for which there was no job. -/
inductive Rewrite (policy : Retry.Policy) (op : Operation) (past : Past) (cur : Notification)
    (time : Instant) : Notification → Prop
  | queue (able : op.onlyReports = false) (pending : cur.status = .pending)
      (backed : op.pushesFirst = true → past.Backed cur.id) :
      Rewrite policy op past cur time (cur.queuedFrom time)
  | report {outcome : Outcome} {next : Notification} {wrap : Notification → Service.Recorded}
      (reports : op.Reports cur.id cur.attemptCount outcome) (queued : cur.status = .queued)
      (reported : Service.Reported policy cur time outcome next wrap)
      (job : next.status = .queued → past.Asked (cur.id, next.attemptCount)) :
      Rewrite policy op past cur time next
  | reset (able : op.onlyReports = false) (failed : cur.status = .failed) :
      Rewrite policy op past cur time (cur.resetAt time)
  | restore {failed old : Notification} {before : Instant} (able : op.onlyReports = false)
      (known : failed ∈ past.versions cur.id) (wasFailed : failed.status = .failed)
      (replaced : old ∈ past.versions cur.id) (same : old.version = failed.version)
      (reset : cur = Store.merged old (failed.resetAt before)) :
      Rewrite policy op past cur time { failed with version := cur.version, updatedAt := time }

/-- The call has written what the outcome makes of the record as the attempt with that number found
it, and has called that what it is. -/
inductive Applied (policy : Retry.Policy) (past : Past) (me : Nat) (id : Uuid) (attempt : Nat)
    (outcome : Outcome) : Service.Recorded → Prop
  | intro {cur old next : Notification} {time : Instant} {wrap : Notification → Service.Recorded}
      (seen : past.Seen cur time) (own : cur.id = id) (queued : cur.status = .queued)
      (current : cur.attemptCount = attempt)
      (reported : Service.Reported policy cur time outcome next wrap)
      (replaced : old ∈ past.versions id) (same : old.version = cur.version)
      (wrote : (me, Store.merged old next) ∈ past.writes) :
      Applied policy past me id attempt outcome (wrap (Store.merged old next))

variable {policy : Retry.Policy} {op : Operation} {next : Notification}

theorem Rewrite.mono (h : past.Rewrite policy op cur time next) (grown : past <+: now) :
    now.Rewrite policy op cur time next := by
  cases h with
  | queue able pending backed =>
      exact .queue able pending fun pushes => (backed pushes).mono grown
  | report reports queued reported job =>
      exact .report reports queued reported fun again => (job again).mono grown
  | reset able failed => exact .reset able failed
  | restore able known wasFailed replaced same reset =>
      exact .restore able (versions_subset grown known) wasFailed (versions_subset grown replaced)
        same reset

theorem Applied.mono {outcome : Outcome} {r : Service.Recorded}
    (h : past.Applied policy me id attempt outcome r) (grown : past <+: now) :
    now.Applied policy me id attempt outcome r := by
  cases h with
  | intro seen own queued current reported replaced same wrote =>
      exact .intro (seen.mono grown) own queued current reported (versions_subset grown replaced)
        same ((grown.filterMap _).subset wrote)

end Past

/-- What call `me` has to know when it makes a request. -/
def warrant (policy : Retry.Policy) (op : Operation) (me : Nat) (past : Past) : Request → Prop
  | .insert n => op.onlyReports = false ∧ past.Submitted n
  | .update n => ∃ cur time, past.Seen cur time ∧ past.Rewrite policy op cur time n
  | .ack token => ∃ lease, op = .process lease ∧ lease.token = token ∧
      past.Discharged me lease.job.notificationId lease.job.attempt
  | _ => True

/-- What the result of a call says: a report that is not stale has been applied. -/
def outcome (policy : Retry.Policy) : (op : Operation) → Nat → op.Result → Past → Prop
  | .record id attempt outcome, me, result, past => ∀ r, result = .ok r → r.isStale = false →
      past.Applied policy me id attempt outcome r
  | _, _, _, _ => True

def contract (policy : Retry.Policy) : Contract := ⟨warrant policy, outcome policy⟩

/-- Call `me`, on its way through operation `op`, keeps to the contract while it runs the program,
and may rely on `post` when that has come to an end. -/
abbrev Sound {α : Type} (policy : Retry.Policy) (op : Operation) (me : Nat) (p : Prog α)
    (past : Past) (post : α → Past → Prop) : Prop :=
  p.Keeps (warrant policy op me) me post past

end Courier
