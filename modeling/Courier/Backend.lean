import Courier.Program
import Courier.Store

namespace Courier

structure Backend where
  store : Store
  queue : Queue
  clock : Instant
  nextId : Nat

namespace Backend

/-- Fresh identifiers are numbers from here on. -/
def firstId : Nat := 0xf0000000000040008000000000000000

def freshId (b : Backend) : Uuid × Backend :=
  (Uuid.ofNat (firstId + b.nextId), { b with nextId := b.nextId + 1 })

/-- What one request comes to: an answer, the backends after it, and the events it logs. -/
structure Step (β : Type) where
  reply : β
  backend : Backend
  events : List Event := []

def reading {β : Type} (b : Backend) (result : Except Error β) : Step (Except Error β) :=
  { reply := result, backend := b }

def insert (b : Backend) (n : Notification) : Step (Except Error Unit) :=
  match b.store.insert n with
  | .ok store => { reply := .ok (), backend := { b with store } }
  | .error e => { reply := .error e, backend := b }

def update (b : Backend) (n : Notification) : Step (Except Error Notification) :=
  match b.store.update n with
  | .ok (stored, store) => { reply := .ok stored, backend := { b with store } }
  | .error e => { reply := .error e, backend := b }

def enqueue (b : Backend) (job : Job) : Step (Except Error Unit) :=
  match b.queue.enqueue job with
  | .ok queue =>
    { reply := .ok ()
      backend := { b with queue }
      events := if b.queue.isWaiting job.key then [Queue.alreadyWaiting job] else [] }
  | .error e => { reply := .error e, backend := b }

def ack (b : Backend) (token : Uuid) : Step (Except Error Bool) :=
  match b.queue.ack token with
  | .ok (held, queue) => { reply := .ok held, backend := { b with queue } }
  | .error e => { reply := .error e, backend := b }

def tryLease (b : Backend) (leaseFor : Duration) : Step (Except Error Queue.Attempt) :=
  if b.queue.available then
    let (token, next) := b.freshId
    let (attempt, queue) := b.queue.tryLease b.clock leaseFor token
    { reply := .ok attempt
      backend := { next with queue }
      events := (b.queue.expired b.clock).map Queue.leaseExpired }
  else { reply := .error Queue.unavailableError, backend := b }

/-- The answers that the backends alone can give. -/
def perform (b : Backend) : (r : Request) → Option (Step r.Reply)
  | .now => some { reply := b.clock, backend := b }
  | .freshId =>
    let (id, next) := b.freshId
    some { reply := id, backend := next }
  | .get id => some (b.reading (b.store.get id))
  | .insert n => some (b.insert n)
  | .update n => some (b.update n)
  | .scan filter => some (b.reading (b.store.scan filter))
  | .enqueue job => some (b.enqueue job)
  | .ack token => some (b.ack token)
  | .depth => some (b.reading b.queue.depth)
  | _ => none

end Backend
end Courier
