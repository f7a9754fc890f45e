import Courier.Message
import Courier.Service

/-!
Workers, which drain the delivery queue. A worker leases one job at a time, makes the attempt it
asks for, and reports the outcome. The job is acknowledged only when its outcome has been recorded;
until then it comes back when its lease has run out.
-/
namespace Courier.Worker

open Prog

structure Config where
  concurrency : Nat
  leaseFor : Duration
  pollWait : Duration
  sendLimit : Duration

namespace Config

def standard : Config :=
  { concurrency := 4
    leaseFor := .ofSeconds 60
    pollWait := .ofSeconds 2
    sendLimit := .ofSeconds 30 }

end Config

/-- The names of the providers, by channel. A channel without one cannot be delivered. -/
abbrev Emitters := List (Channel × String)

inductive JobOutcome where
  /-- The outcome of the attempt was recorded and the job acknowledged. -/
  | recorded (r : Service.Recorded)
  /-- The job no longer matched its notification and was dropped. -/
  | skipped
  /-- The job was left leased and will come back. -/
  | retained

def ack (lease : Lease) : Prog Unit := do
  match ← Prog.ack lease.token with
  | .ok true => pure ()
  | .ok false =>
    note ⟨.debug, "Lease expired before ack", [Service.idField lease.job.notificationId]⟩
  | .error e =>
    note ⟨.warn, "Failed to ack delivery job",
      [Service.idField lease.job.notificationId, ("error", .text e.display)]⟩

/-- The notification as the job's attempt finds it, if the job still asks for the next attempt. A
pending notification is marked as queued first. -/
def claim (n : Notification) (attempt : Nat) : Prog (Except Error (Option Notification)) :=
  if n.status.isTerminal || n.attemptCount != attempt then do
    note ⟨.debug, "Skipping stale delivery job",
      [Service.idField n.id, ("status", .text n.status.name),
        ("attempt_count", .count n.attemptCount), ("job_attempt", .count attempt)]⟩
    pure (.ok none)
  else if n.status = .pending then do
    match ← Service.markQueued n.id with
    | .error e => pure (.error e)
    | .ok queued =>
      if queued.status = .queued ∧ queued.attemptCount = attempt then pure (.ok (some queued))
      else pure (.ok none)
  else pure (.ok (some n))

/-- Renders the notification and hands it to the provider of its channel. -/
def attempt (emitters : Emitters) (limit : Duration) (n : Notification) : Prog Outcome :=
  match emitters.lookup n.channel with
  | none => pure (.permanent s!"No emitter configured for channel {n.channel.name}")
  | some emitter =>
    match Message.render n.channel n.payload with
    | .error e => pure (.permanent s!"Render failed: {e.display}")
    | .ok message => do
      match ← send n.channel n.recipient message limit with
      | some (.ok ()) => pure .success
      | some (.error e) =>
        note ⟨.warn, "Emitter send failed",
          [Service.idField n.id, ("emitter", .text emitter), ("error", .text e.display)]⟩
        pure e.classify
      | none => pure (.transient s!"Send timed out after {limit.millis}ms")

/-- Handles one leased job from end to end. -/
def process (policy : Retry.Policy) (emitters : Emitters) (limit : Duration) (lease : Lease) :
    Prog JobOutcome := do
  let id := lease.job.notificationId
  let number := lease.job.attempt
  match ← Service.get id with
  | .error (.notFound _) =>
    note ⟨.warn, "Job references unknown notification, dropping", [Service.idField id]⟩
    ack lease
    pure .skipped
  | .error e =>
    note ⟨.warn, "Could not load notification, leaving job leased",
      [Service.idField id, ("error", .text e.display)]⟩
    pure .retained
  | .ok n =>
    match ← claim n number with
    | .error e =>
      note ⟨.warn, "Could not mark notification queued",
        [Service.idField id, ("error", .text e.display)]⟩
      pure .retained
    | .ok none =>
      ack lease
      pure .skipped
    | .ok (some claimed) =>
      let outcome ← attempt emitters limit claimed
      note ⟨.debug, "Delivery attempt finished",
        [Service.idField id, ("attempt", .count number), ("outcome", .text outcome.display)]⟩
      match ← Service.record policy id number outcome with
      | .ok r =>
        ack lease
        pure (.recorded r)
      | .error e =>
        note ⟨.error, "Failed to record attempt outcome, job will be redelivered",
          [Service.idField id, ("attempt", .count number), ("error", .text e.display)]⟩
        pure .retained

/-- After the queue has failed, a worker waits this long before it leases again. -/
def errorPause : Duration := .ofSeconds 1

/-- One round of the worker with that number: it leases a job and handles it. The answer says
whether another round follows. -/
def round (policy : Retry.Policy) (emitters : Emitters) (config : Config) (number : Nat) :
    Prog Bool := do
  let stopped : Event := ⟨.debug, "Worker stopped", [("worker_id", .count number)]⟩
  match ← lease config.pollWait config.leaseFor with
  | none =>
    note stopped
    pure false
  | some (.ok none) => pure true
  | some (.ok (some held)) =>
    let _ ← process policy emitters config.sendLimit held
    pure true
  | some (.error e) =>
    note ⟨.warn, "Failed to lease delivery job",
      [("worker_id", .count number), ("error", .text e.display)]⟩
    if ← pause errorPause then
      note stopped
      pure false
    else pure true

end Courier.Worker
