import Courier.Error
import Courier.Time.Instant
import Courier.RateLimit.Amount

/-!
Token buckets, one for each key. A bucket fills steadily up to its capacity, every admission takes
one token, and a bucket that has been idle for long starts full again.
-/
namespace Courier.RateLimit

structure Config (α : Type) where
  capacity : Nat
  refillPerSecond : α
  /-- A bucket untouched for this long is as good as new. -/
  idleTtl : Duration

structure Bucket (α : Type) where
  tokens : α
  refilledAt : Instant

/-- All buckets, and how often one of them was asked for a token. -/
structure Buckets (α : Type) where
  entries : List (String × Bucket α)
  acquires : Nat

/-- What became of one request for a token, and the tokens left. -/
structure Grant (α : Type) where
  acquired : Bool
  tokens : α

variable {α : Type} [Amount α]

namespace Config

/-- A refill per minute has to be a usable amount, and a bucket has to hold a token. -/
def perMinute (capacity : Nat) (refillPerMinute : α) (idleTtl : Duration) :
    Except Error (Config α) :=
  if capacity = 0 then .error (.config "rate limit capacity must be at least 1")
  else if Amount.isUsable refillPerMinute then
    .ok ⟨capacity, refillPerMinute / Amount.ofNat 60, idleTtl⟩
  else
    let text := Amount.text refillPerMinute
    .error (.config s!"rate limit refill must be a positive finite number, got {text}")

theorem perMinute_eq_ok {capacity : Nat} {refillPerMinute : α} {idleTtl : Duration} {c : Config α} :
    perMinute capacity refillPerMinute idleTtl = .ok c ↔
      capacity ≠ 0 ∧ Amount.isUsable refillPerMinute = true ∧
        c = ⟨capacity, refillPerMinute / Amount.ofNat 60, idleTtl⟩ := by
  unfold perMinute
  split
  · simp [*]
  · split <;> simp [*, eq_comm]

def full (c : Config α) : α := Amount.ofNat c.capacity

def refill (c : Config α) (tokens : α) (elapsed : Duration) : α :=
  smaller (tokens + Amount.ofDuration elapsed * c.refillPerSecond) c.full

/-- The time until a bucket with `tokens` holds a whole one; nothing if no duration is that long. -/
def untilToken? (c : Config α) (tokens : α) : Option Duration :=
  if Amount.ofNat 1 ≤ tokens then some .zero
  else Amount.toDuration? ((Amount.ofNat 1 - tokens) / c.refillPerSecond)

def isIdle (c : Config α) (b : Bucket α) (now : Instant) : Bool :=
  let idle := now.since b.refilledAt
  0 ≤ idle && c.idleTtl.nanos ≤ idle

end Config

namespace Buckets

def empty : Buckets α := ⟨[], 0⟩

/-- Idle buckets are dropped once in this many requests. -/
def sweepInterval : Nat := 1024

def find? (bs : Buckets α) (key : String) : Option (Bucket α) := bs.entries.lookup key

def putEntry (key : String) (b : Bucket α) : List (String × Bucket α) → List (String × Bucket α)
  | [] => [(key, b)]
  | (k, old) :: rest => if k = key then (k, b) :: rest else (k, old) :: putEntry key b rest

/-- The entries that a request leaves before it looks for its own bucket. -/
def swept (bs : Buckets α) (c : Config α) (now : Instant) : List (String × Bucket α) :=
  if bs.acquires % sweepInterval = sweepInterval - 1 then
    bs.entries.filter fun (_, b) => !c.isIdle b now
  else bs.entries

/-- The bucket of a key at `now`: filled for the time since it was last touched, and full if there
is none or it was idle. A clock that moved backwards fills nothing. -/
def bucketAt (c : Config α) (now : Instant) : Option (Bucket α) → Bucket α
  | none => ⟨c.refill c.full .zero, now⟩
  | some b =>
    if c.isIdle b now then ⟨c.refill c.full .zero, now⟩
    else
      ⟨c.refill b.tokens (now.elapsedSince b.refilledAt),
        if b.refilledAt ≤ now then now else b.refilledAt⟩

def take (b : Bucket α) : Grant α :=
  if Amount.ofNat 1 ≤ b.tokens then ⟨true, b.tokens - Amount.ofNat 1⟩ else ⟨false, b.tokens⟩

/-- One request for a token of the key's bucket. -/
def acquire (bs : Buckets α) (c : Config α) (key : String) (now : Instant) :
    Grant α × Buckets α :=
  let entries := bs.swept c now
  let b := bucketAt c now (entries.lookup key)
  let grant := take b
  (grant, ⟨putEntry key ⟨grant.tokens, b.refilledAt⟩ entries, bs.acquires + 1⟩)

end Buckets

structure Admission where
  allowed : Bool
  remaining : Nat
  retryAfter : Duration
  deriving DecidableEq

namespace Admission

def unlimited (capacity : Nat) : Admission := ⟨true, capacity, .zero⟩

/-- The admission that a grant means; nothing if no duration is long enough for its waiting time. -/
def ofGrant? (c : Config α) (grant : Grant α) : Option Admission :=
  let remaining := Amount.whole grant.tokens
  if grant.acquired then some ⟨true, remaining, .zero⟩
  else (c.untilToken? grant.tokens).map fun wait => ⟨false, remaining, wait⟩

/-- One request for admission by buckets that can be reached, and the buckets after it; no answer if
the time to wait is no duration. -/
def request (c : Config α) (bs : Buckets α) (key : String) (now : Instant) :
    Option Admission × Buckets α :=
  let (grant, bs) := bs.acquire c key now
  (ofGrant? c grant, bs)

/-- Whole seconds to wait, at least one. The noise of the division is taken off before rounding
up. -/
def retryAfterSeconds (a : Admission) : Nat :=
  max 1 (floatSeconds a.retryAfter - 1e-9).ceil.toUInt64.toNat

end Admission

end Courier.RateLimit
