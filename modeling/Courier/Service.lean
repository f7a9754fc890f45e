import Courier.Payload
import Courier.Program
import Courier.Recipient
import Courier.Retry

/-!
The notification service, owner of the life of a notification:

* pending to queued when a delivery job has been pushed,
* queued to queued when an attempt failed and another one is scheduled,
* queued to sent or failed when there is nothing left to do,
* failed to pending and queued again by an administrator.

Every write carries the version that was read, so of two writers that meet one loses. The loser
reads again and decides again, a bounded number of times.
-/
namespace Courier.Service

open Prog

/-- How often a lost write is tried again, the first time included. -/
def writeTries : Nat := 5

inductive Recorded where
  | sent (n : Notification)
  | retryScheduled (n : Notification)
  | failed (n : Notification)
  /-- The report was not about the current attempt and changed nothing. -/
  | stale (n : Notification)

namespace Recorded

def notification : Recorded → Notification
  | sent n | retryScheduled n | failed n | stale n => n

end Recorded

def idField (id : Uuid) : String × LogField := ("notification_id", .text id.render)

def get (id : Uuid) : Prog (Except Error Notification) := do
  match ← Prog.get id with
  | .error e => pure (.error e)
  | .ok none => pure (.error (.notificationNotFound id))
  | .ok (some n) => pure (.ok n)

def list (filter : Filter) : Prog (Except Error (List Notification)) := scan filter

/-- Pending to queued. A record that has moved on already is left as it is. -/
def markQueuedIn : (tries : Nat) → (id : Uuid) → Prog (Except Error Notification)
  | 0, id => pure (.error (.changedWhileQueued id))
  | tries + 1, id => do
    match ← get id with
    | .error e => pure (.error e)
    | .ok current =>
      if current.status = .pending then do
        let time ← now
        match ← update (current.queuedFrom time) with
        | .ok stored =>
          note ⟨.info, "Notification queued", [idField id]⟩
          pure (.ok stored)
        | .error e => if e.isConflict then markQueuedIn tries id else pure (.error e)
      else pure (.ok current)

def markQueued (id : Uuid) : Prog (Except Error Notification) := markQueuedIn writeTries id

/-- Pushes the delivery job of a pending notification and marks it as queued. The job goes first, so
that nothing is written when the queue refuses it. -/
def enqueue (n : Notification) : Prog (Except Error Notification) :=
  match n.status with
  | .queued => do
    note ⟨.debug, "Notification already queued", [idField n.id]⟩
    pure (.ok n)
  | .sent | .failed => pure (.error (.cannotBeEnqueued n.id n.status))
  | .pending => do
    let time ← now
    match ← Prog.enqueue (.immediate n.id n.attemptCount time) with
    | .error e =>
      note ⟨.warn, "Delivery queue rejected job, notification left PENDING",
        [idField n.id, ("error", .text e.display)]⟩
      pure (.error (.leftPending n.id e))
    | .ok () => markQueued n.id

/-- Checks a submission, stores it as pending and enqueues it. -/
def create (submission : Submission) : Prog (Except Error Notification) := do
  let trimmed := { submission with recipient := Text.trimmed submission.recipient }
  match Recipient.validate trimmed.channel trimmed.recipient with
  | .error e => pure (.error e)
  | .ok () =>
    match Payload.validate trimmed.channel trimmed.payload with
    | .error e => pure (.error e)
    | .ok () =>
      let time ← now
      let id ← freshId
      let n := Notification.create id trimmed time
      match ← insert n with
      | .error e => pure (.error e)
      | .ok () =>
        note ⟨.info, "Notification created",
          [idField id, ("channel_type", .text n.channel.name)]⟩
        enqueue n

/-- The attempts used up when one more has been made. -/
def attemptsAfter (policy : Retry.Policy) (n : Notification) : Nat :=
  min (n.attemptCount + 1) policy.maxAttempts

theorem attemptsAfter_of_left {policy : Retry.Policy} {n : Notification}
    (left : attemptsAfter policy n < policy.maxAttempts) :
    attemptsAfter policy n = n.attemptCount + 1 := by
  unfold attemptsAfter at left ⊢
  omega

/-- What a reported outcome makes of a record, and what the write of it will mean. For a failure
with attempts left, the retry job is pushed before the record is written. -/
def applied (policy : Retry.Policy) (current : Notification) (outcome : Outcome)
    (time : Instant) : Prog (Except Error (Notification × (Notification → Recorded))) := do
  let attempts := attemptsAfter policy current
  let next := { current with updatedAt := time, attemptCount := attempts }
  match outcome with
  | .success =>
    pure (.ok ({ next with
      status := .sent
      sentAt := some time
      failedAt := none
      errorMessage := none
      nextRetryAt := none }, .sent))
  | .permanent message =>
    pure (.ok ({ next with attemptCount := policy.maxAttempts }.failedWith time message, .failed))
  | .transient message =>
    let bound := if policy.maxAttempts ≤ attempts then 0 else policy.jitterBound attempts
    let extra ← if bound = 0 then pure 0 else draw bound
    match ← orAbort (policy.decide? attempts extra time) with
    | .giveUp =>
      pure (.ok (next.failedWith time s!"Failed after {attempts} attempts: {message}", .failed))
    | .retryAt delay retryAt =>
      let job : Job := ⟨current.id, attempts, time, retryAt⟩
      match ← Prog.enqueue job with
      | .error e => pure (.error (.retryNotScheduled current.id e))
      | .ok () =>
        note ⟨.warn, "Delivery failed, retry scheduled",
          [idField current.id, ("attempt_count", .count attempts),
            ("delay_secs", .count delay.seconds), ("error", .text message)]⟩
        pure (.ok ({ next with errorMessage := some message, nextRetryAt := some retryAt },
          .retryScheduled))

/-- The event for a record that a report has brought to an end. -/
def closing (stored : Notification) : List Event :=
  match stored.status with
  | .sent =>
    [⟨.info, "Notification sent",
      [idField stored.id, ("attempt_count", .count stored.attemptCount)]⟩]
  | .failed =>
    [⟨.error, "Notification failed permanently",
      [idField stored.id, ("attempt_count", .count stored.attemptCount),
        ("error", .text (stored.errorMessage.getD ""))]⟩]
  | _ => []

/-- Applies the outcome of the attempt with that number, with a bounded number of tries. -/
def recordIn (policy : Retry.Policy) (id : Uuid) (attempt : Nat) (outcome : Outcome) :
    (tries : Nat) → Prog (Except Error Recorded)
  | 0 => pure (.error (.changedWhileRecorded id attempt))
  | tries + 1 => do
    match ← get id with
    | .error e => pure (.error e)
    | .ok current =>
      if current.status = .queued ∧ current.attemptCount = attempt then do
        let time ← now
        if Notification.attemptLimit ≤ current.attemptCount + 1 then abort
        else
          match ← applied policy current outcome time with
          | .error e => pure (.error e)
          | .ok (next, wrap) =>
            match ← update next with
            | .ok stored =>
              noteAll (closing stored)
              pure (.ok (wrap stored))
            | .error e =>
              if e.isConflict then recordIn policy id attempt outcome tries else pure (.error e)
      else do
        note ⟨.debug, "Ignoring stale attempt result",
          [idField id, ("attempt", .count attempt), ("status", .text current.status.name),
            ("attempt_count", .count current.attemptCount)]⟩
        pure (.ok (.stale current))

/-- Applies the outcome of the attempt with that number. A report for a notification that is not
queued, or whose attempts have moved on, is stale. -/
def record (policy : Retry.Policy) (id : Uuid) (attempt : Nat) (outcome : Outcome) :
    Prog (Except Error Recorded) :=
  recordIn policy id attempt outcome writeTries

/-- Failed to pending, with a bounded number of tries: the record as it was and as it is stored
now. -/
def resetIn : (tries : Nat) → (id : Uuid) → Prog (Except Error (Notification × Notification))
  | 0, id => pure (.error (.changedWhileReset id))
  | tries + 1, id => do
    match ← get id with
    | .error e => pure (.error e)
    | .ok current =>
      if current.status = .failed then do
        let time ← now
        match ← update (current.resetAt time) with
        | .ok stored => pure (.ok (current, stored))
        | .error e => if e.isConflict then resetIn tries id else pure (.error e)
      else pure (.error (.notFailed id current.status))

/-- A failed notification gets a fresh attempt budget and is enqueued again. When the queue refuses
the job, the record is put back as it was, so that it is still found among the failed ones. -/
def resetFailed (id : Uuid) : Prog (Except Error Notification) := do
  match ← resetIn writeTries id with
  | .error e => pure (.error e)
  | .ok (failed, pending) =>
    match ← enqueue pending with
    | .ok queued => pure (.ok queued)
    | .error e =>
      if e.isQueueUnavailable then do
        let time ← now
        match ← update { failed with version := pending.version, updatedAt := time } with
        | .ok _ => pure (.error e)
        | .error lost =>
          note ⟨.error, "Could not restore FAILED status after queue error",
            [idField id, ("error", .text lost.display)]⟩
          pure (.error e)
      else pure (.error e)

end Courier.Service
