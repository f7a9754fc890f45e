import Courier.Queue
import Courier.Recovery.Category

namespace Courier.Recovery

/-- Counts by name, in the order of names. -/
abbrev Tally := List (String × Nat)

def Tally.count (name : String) : Tally → Tally
  | [] => [(name, 1)]
  | (k, n) :: rest =>
    if name = k then (k, n + 1) :: rest
    else if name < k then (name, 1) :: (k, n) :: rest
    else (k, n) :: Tally.count name rest

def Tally.total (t : Tally) : Nat := t.foldl (fun sum entry => sum + entry.2) 0

structure Breakdown where
  pending : Nat := 0
  queued : Nat := 0
  sent : Nat := 0
  failed : Nat := 0
  deriving DecidableEq

namespace Breakdown

def add (b : Breakdown) : Status → Breakdown
  | .pending => { b with pending := b.pending + 1 }
  | .queued => { b with queued := b.queued + 1 }
  | .sent => { b with sent := b.sent + 1 }
  | .failed => { b with failed := b.failed + 1 }

def ofRecords (records : List Notification) : Breakdown :=
  records.foldl (fun b n => b.add n.status) {}

end Breakdown

/-- Times in seconds, summed up, and how many they are. -/
structure Times where
  total : Float := 0.0
  count : Nat := 0

namespace Times

/-- Takes in the time between two instants, in whole milliseconds. -/
def add (t : Times) (later earlier : Instant) : Times :=
  let millis := (later.since earlier).tdiv 1000000
  { total := t.total + Float.ofInt millis / 1000.0
    count := t.count + 1 }

def average (t : Times) : Float :=
  if 0 < t.count then t.total / Float.ofNat t.count else 0.0

end Times

def ratio (part whole : Nat) : Float :=
  if whole = 0 then 0.0 else Float.ofNat part / Float.ofNat whole

structure Statistics where
  total : Nat := 0
  statuses : Breakdown := {}
  channels : Tally := []
  sendTimes : Times := {}
  failureTimes : Times := {}
  failures : Nat := 0
  categories : Tally := []
  retried : Nat := 0
  retrying : Nat := 0
  exhausted : Nat := 0
  retriedAndSent : Nat := 0
  /-- Failed attempts of the notifications that were sent after all. -/
  retriesBeforeSuccess : Nat := 0

namespace Statistics

/-- The attempts that failed before the state the record is in. -/
def failedAttempts (n : Notification) : Nat :=
  match n.status with
  | .sent => n.attemptCount - 1
  | _ => n.attemptCount

def addSent (s : Statistics) (n : Notification) : Statistics :=
  let s :=
    match n.queuedAt, n.sentAt with
    | some queuedAt, some sentAt => { s with sendTimes := s.sendTimes.add sentAt queuedAt }
    | _, _ => s
  if 0 < failedAttempts n then
    { s with
      retriedAndSent := s.retriedAndSent + 1
      retriesBeforeSuccess := s.retriesBeforeSuccess + failedAttempts n }
  else s

def addFailed (s : Statistics) (n : Notification) : Statistics :=
  { s with
    exhausted := s.exhausted + 1
    failures := s.failures + 1
    failureTimes :=
      match n.failedAt with
      | some failedAt => s.failureTimes.add failedAt n.createdAt
      | none => s.failureTimes
    categories := Tally.count (category n.errorMessage) s.categories }

def add (s : Statistics) (n : Notification) : Statistics :=
  let s :=
    { s with
      total := s.total + 1
      statuses := s.statuses.add n.status
      channels := Tally.count n.channel.name s.channels
      retried := s.retried + (if 0 < failedAttempts n then 1 else 0) }
  match n.status with
  | .pending => s
  | .queued => { s with retrying := s.retrying + (if 0 < failedAttempts n then 1 else 0) }
  | .sent => s.addSent n
  | .failed => s.addFailed n

def ofRecords (records : List Notification) : Statistics := records.foldl add {}

def tallyJson (t : Tally) : Json := .object (t.map fun (name, n) => (name, .ofNat n))

/-- The report, with the depth of the queue if that is known. -/
def toJson (s : Statistics) (depth : Option Queue.Depth) : Json :=
  .object ([
    ("total_notifications", .ofNat s.total),
    ("status_breakdown", .object [
      ("pending", .ofNat s.statuses.pending),
      ("queued", .ofNat s.statuses.queued),
      ("sent", .ofNat s.statuses.sent),
      ("failed", .ofNat s.statuses.failed)]),
    ("type_breakdown", tallyJson s.channels),
    ("success_rate", Json.float (ratio s.statuses.sent s.total)),
    ("average_send_time_seconds", Json.float s.sendTimes.average),
    ("average_failure_time_seconds", Json.float s.failureTimes.average),
    ("failed_notifications", .object [
      ("total", .ofNat s.failures),
      ("by_error_type", tallyJson s.categories)]),
    ("retry_statistics", .object [
      ("total_retried", .ofNat s.retried),
      ("currently_retrying", .ofNat s.retrying),
      ("exhausted_retries", .ofNat s.exhausted),
      ("average_retries_before_success",
        Json.float (ratio s.retriesBeforeSuccess s.retriedAndSent)),
      ("retry_success_rate", Json.float (ratio s.retriedAndSent s.retried))])]
    ++ (depth.map fun d => ("queue", d.toJson)).toList)

end Statistics
end Courier.Recovery
