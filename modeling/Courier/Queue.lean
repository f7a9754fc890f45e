import Courier.Error
import Courier.Event
import Courier.Job

/-!
The delivery queue. A job waits until a worker leases it, and leaves the queue when the worker
acknowledges it under its lease; a lease that has run out puts the job back in its old place. Jobs
go out in the order in which they become visible, and of one instant in the order in which they
came.
-/
namespace Courier

structure Queue.Entry where
  sequence : Nat
  job : Job
  deriving DecidableEq

structure Queue.Held where
  token : Uuid
  entry : Queue.Entry
  expiresAt : Instant
  deriving DecidableEq

structure Queue where
  nextSequence : Nat
  waiting : List Queue.Entry
  leased : List Queue.Held
  available : Bool

namespace Queue

def empty : Queue := ⟨0, [], [], true⟩

def unavailableError : Error := .queueUnavailable "in-memory queue marked unavailable"

/-- Jobs that have not been acknowledged, whether or not somebody holds them. -/
def liveJobs (q : Queue) : List Job :=
  q.waiting.map Entry.job ++ q.leased.map fun held => held.entry.job

def isWaiting (q : Queue) (key : Job.Key) : Bool := q.waiting.any fun e => e.job.key == key

/-- A job whose attempt waits already changes nothing. One whose attempt is leased takes the lease
away. -/
def push (q : Queue) (job : Job) : Queue :=
  if q.isWaiting job.key then q
  else
    { q with
      nextSequence := q.nextSequence + 1
      waiting := q.waiting ++ [⟨q.nextSequence, job⟩]
      leased := q.leased.filter fun held => held.entry.job.key != job.key }

def enqueue (q : Queue) (job : Job) : Except Error Queue :=
  if q.available then .ok (q.push job) else .error unavailableError

def expired (q : Queue) (now : Instant) : List Held :=
  q.leased.filter fun held => held.expiresAt ≤ now

/-- Jobs whose lease has run out wait again. -/
def reclaim (q : Queue) (now : Instant) : Queue :=
  { q with
    waiting := q.waiting ++ (q.expired now).map Held.entry
    leased := q.leased.filter fun held => !(decide (held.expiresAt ≤ now)) }

def Entry.precedes (a b : Entry) : Bool :=
  a.job.visibleAt < b.job.visibleAt
    || (a.job.visibleAt == b.job.visibleAt && a.sequence ≤ b.sequence)

def firstOf : List Entry → Option Entry
  | [] => none
  | e :: rest =>
    match firstOf rest with
    | none => some e
    | some best => if e.precedes best then some e else some best

def nextVisible (q : Queue) (now : Instant) : Option Entry :=
  firstOf (q.waiting.filter fun e => e.job.visibleAt ≤ now)

/-- What one try at leasing a job comes to. -/
inductive Attempt where
  | nothing
  | leased (lease : Lease)
  /-- The lease would run out beyond all dates. -/
  | outOfRange

/-- One try at leasing a job under a token that nobody has. A job is taken off the waiting list
before the end of its lease is known. -/
def tryLease (q : Queue) (now : Instant) (leaseFor : Duration) (token : Uuid) : Attempt × Queue :=
  let q := q.reclaim now
  match q.nextVisible now with
  | none => (.nothing, q)
  | some entry =>
    let taken := { q with waiting := q.waiting.erase entry }
    match now.add? leaseFor with
    | none => (.outOfRange, taken)
    | some expiresAt =>
      (.leased ⟨entry.job, token, expiresAt⟩,
        { taken with leased := q.leased ++ [⟨token, entry, expiresAt⟩] })

/-- Whether the lease was still held, and the queue without the job. -/
def ack (q : Queue) (token : Uuid) : Except Error (Bool × Queue) :=
  if q.available then
    .ok (q.leased.any fun held => held.token == token,
      { q with leased := q.leased.filter fun held => held.token != token })
  else .error unavailableError

structure Depth where
  waiting : Nat
  leased : Nat
  deriving DecidableEq

def depth (q : Queue) : Except Error Depth :=
  if q.available then .ok ⟨q.waiting.length, q.leased.length⟩ else .error unavailableError

def ping (q : Queue) : Except Error Unit :=
  if q.available then .ok () else .error unavailableError

def Depth.toJson (d : Depth) : Json :=
  .object [("waiting", .ofNat d.waiting), ("leased", .ofNat d.leased)]

def alreadyWaiting (job : Job) : Event :=
  ⟨.debug, "Job for this attempt already waiting",
    [("notification_id", .text job.notificationId.render), ("attempt", .count job.attempt)]⟩

def leaseExpired (held : Held) : Event :=
  ⟨.debug, "Lease expired, job visible again",
    [("notification_id", .text held.entry.job.notificationId.render)]⟩

end Queue
end Courier
