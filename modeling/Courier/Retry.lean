import Courier.Time.Instant
import Courier.Width

namespace Courier.Retry

structure Policy where
  /-- After this many attempts a notification has failed for good. -/
  maxAttempts : Nat
  baseDelay : Duration
  maxDelay : Duration
  jitter : Bool
  deriving DecidableEq

/-- The factor on the first delay after that many failures, at most 2^32 - 1. -/
def factor (failures : Nat) : Nat :=
  if failures - 1 < 32 then Nat.pow 2 (failures - 1) else Width.limit32 - 1

namespace Policy

/-- The delay after that many failures, before any lengthening. -/
def baseDelayFor (p : Policy) (failures : Nat) : Duration :=
  ((p.baseDelay.scale? (factor failures)).getD p.maxDelay).shorter p.maxDelay

/-- The random part of the delay, in milliseconds, is drawn below this bound; with a bound of zero
there is none. The sum stays within the longest delay. -/
def jitterBound (p : Policy) (failures : Nat) : Nat :=
  if p.jitter then
    let half := min p.baseDelay.millis (Width.limit64 - 1) / 2
    let room := (p.maxDelay.nanos - (p.baseDelayFor failures).nanos) / 1000000
    min half (if room < Width.limit64 then room else 0)
  else 0

/-- The delay after that many failures with a random part of `extra` milliseconds. -/
def delayFor? (p : Policy) (failures extra : Nat) : Option Duration :=
  if p.jitterBound failures = 0 then some (p.baseDelayFor failures)
  else (p.baseDelayFor failures).add? (Duration.ofMillis extra)

end Policy

inductive Decision where
  | giveUp
  | retryAt (delay : Duration) (next : Instant)
  deriving DecidableEq

/-- The decision after that many failures, with a random part of `extra` milliseconds; nothing if
the next attempt would lie beyond all dates. -/
def Policy.decide? (p : Policy) (failures extra : Nat) (now : Instant) : Option Decision :=
  if p.maxAttempts ≤ failures then some .giveUp
  else
    match p.delayFor? failures extra with
    | none => none
    | some delay => (now.add? delay).map fun next => .retryAt delay next

/-- A policy gives up exactly when the attempts are used up. -/
theorem Policy.decide?_eq_giveUp {p : Policy} {failures extra : Nat} {now : Instant} :
    p.decide? failures extra now = some .giveUp ↔ p.maxAttempts ≤ failures := by
  unfold decide?
  split
  · exact ⟨fun _ => ‹_›, fun _ => rfl⟩
  · rename_i left
    refine ⟨fun given => ?_, fun spent => absurd spent left⟩
    split at given
    · cases given
    · obtain ⟨next, _, same⟩ := Option.map_eq_some_iff.mp given
      cases same

theorem Policy.left_of_decided {p : Policy} {failures extra : Nat} {now next : Instant}
    {delay : Duration} (decided : p.decide? failures extra now = some (.retryAt delay next)) :
    failures < p.maxAttempts := by
  refine Nat.lt_of_not_le fun spent => ?_
  rw [decide?_eq_giveUp.mpr spent] at decided
  cases decided

end Courier.Retry
