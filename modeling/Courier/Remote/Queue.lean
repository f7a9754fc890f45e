import Courier.Queue
import Courier.Remote.Conversation

/-!
The delivery queue on a data server. Every operation is one script, so that no job is ever held by
two workers; a worker that finds no job asks again until its waiting time is over.
-/
namespace Courier.Remote

/-- The part of the server's keys that belongs to one queue. -/
structure Queue where
  keyspace : String

namespace Queue

def key (q : Queue) (name : String) : String := q.keyspace ++ ":" ++ name

def holderKeys (q : Queue) : List String :=
  [q.key "leased", q.key "jobs", q.key "tokens", q.key "leases"]

def keys (q : Queue) : List String := q.key "ready" :: q.holderKeys

def unavailable (f : Failure) : Error := .queueUnavailable f.message

/-- The result of a command of which the reply is read. -/
def result {α : Type} (read : Reply → Except Failure α) (r : Except Failure Reply) :
    Except Error α :=
  (r.bind read).mapError unavailable

def enqueue (q : Queue) (job : Job) : Talk (Except Error Unit) := do
  let r ← runScript q.keys
    [.text job.name, .text job.encode, .integer job.visibleAt.epochMillis]
  pure ((result Reply.signed r).map fun _ => ())

/-- Whether the lease was still held. -/
def ack (q : Queue) (token : Uuid) : Talk (Except Error Bool) := do
  let r ← runScript q.holderKeys [.text token.render]
  pure ((result Reply.signed r).map (· == 1))

def ping : Talk (Except Error Unit) := do
  let r ← send (.words ["PING"])
  pure ((result Reply.string r).map fun _ => ())

def depth (q : Queue) : Talk (Except Error Queue.Depth) := do
  match result Reply.count (← send (.words ["ZCARD", q.key "ready"])) with
  | .error e => pure (.error e)
  | .ok waiting =>
    let r ← send (.words ["ZCARD", q.key "leased"])
    pure ((result Reply.count r).map fun leased => ⟨waiting, leased⟩)

def corruptJob (name : String) : Error := .internal s!"Corrupt delivery job {name}"

/-- One try at leasing a job, for a lease that runs out at `expiresAt`. -/
def tryLease (q : Queue) (now expiresAt : Instant) (token : Uuid) :
    Talk (Except Error (Option Lease)) := do
  let r ← runScript q.keys
    [.integer now.epochMillis, .integer expiresAt.epochMillis, .text token.render]
  match result (Reply.optional (Reply.pair Reply.string Reply.string)) r with
  | .error e => pure (.error e)
  | .ok none => pure (.ok none)
  | .ok (some (name, text)) =>
    match Job.decode text with
    | .error _ => pure (.error (corruptJob name))
    | .ok job => pure (.ok (some ⟨job, token, expiresAt⟩))

/-- Tries until there is a job or an error, at most so often. -/
def leaseWithin (q : Queue) (now expiresAt : Instant) (token : Uuid) :
    (tries : Nat) → Talk (Except Error (Option Lease))
  | 0 => pure (.ok none)
  | tries + 1 => do
    match ← q.tryLease now expiresAt token with
    | .ok none => leaseWithin q now expiresAt token tries
    | r => pure r

/-- How often a worker tries while it waits: at once, after each interval, and at the end. -/
def tries (wait interval : Duration) : Nat :=
  (wait.nanos + interval.nanos - 1) / interval.nanos + 1

/-- Leases a job, if one comes within the waiting time; nothing at all if the lease would run out
beyond all dates. -/
def lease (q : Queue) (interval : Duration) (now : Instant) (wait leaseFor : Duration)
    (token : Uuid) : Talk (Option (Except Error (Option Lease))) := do
  match now.add? leaseFor with
  | none => pure none
  | some expiresAt => some <$> q.leaseWithin now expiresAt token (tries wait interval)

end Queue
end Courier.Remote
