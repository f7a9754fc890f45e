import Courier.Service
import Courier.Proofs.Course
import Mathlib.Algebra.Group.Nat.Defs

/-!
The arithmetic of backoff. Delays double with every failure up to the longest one, and no delay is
ever out of range, whatever the policy and however many failures there were. A random part is drawn
only where there is something to draw from, and the delay that it lengthens stays within the longest
one.

The next attempt lies exactly one delay after the reading that the decision was made at, as the
difference of the two instants has it, except that a leap second may be lost between them.
-/
namespace Courier

theorem Duration.shorter_nanos (a b : Duration) : (shorter a b).nanos = min a.nanos b.nanos := by
  unfold shorter
  split
  · rename_i shorter
    exact (Nat.min_eq_left shorter).symm
  · rename_i longer
    exact (Nat.min_eq_right (Nat.le_of_not_le longer)).symm

namespace Instant

/-- From the one instant to the other the half of a leap second goes uncounted: the first lies in
it, the other in a later second, and the time of day does not show that the leap second is over. -/
def LosesSecond (t u : Instant) : Prop :=
  1000000000 ≤ t.nano ∧ t.second < u.second ∧ u.secondOfDay ≤ t.secondOfDay

instance (t u : Instant) : Decidable (t.LosesSecond u) :=
  inferInstanceAs (Decidable (1000000000 ≤ t.nano ∧ t.second < u.second ∧
    u.secondOfDay ≤ t.secondOfDay))

theorem since_eq_of_add? {t u : Instant} {d : Duration} (added : t.add? d = some u) :
    u.since t = if t.LosesSecond u then (d.nanos : Int) - 1000000000 else d.nanos := by
  by_cases plain : t.nano < 1000000000
  · rw [since_of_add? plain added, if_neg fun lost => absurd lost.1 (by omega)]
  · have short := t.nano_lt
    unfold add? at added
    split at added
    · -- the sum stays within the leap second
      obtain ⟨same, nanos⟩ := ofParts?_eq_some added
      have day : u.secondOfDay = t.secondOfDay := by rw [secondOfDay, same, secondOfDay]
      rw [if_neg fun lost => absurd lost.2.1 (by omega)]
      unfold since
      rw [if_neg (by omega), if_neg (by omega)]
      omega
    · rename_i leaves
      obtain ⟨seconds, nanos⟩ := ofParts?_eq_some added
      have plainSum : u.nano < 1000000000 := by omega
      have later : t.second < u.second := by omega
      unfold since
      by_cases lost : u.secondOfDay ≤ t.secondOfDay
      · rw [if_pos (show t.LosesSecond u from ⟨by omega, later, lost⟩), if_neg (by omega),
          if_neg (by omega)]
        omega
      · rw [if_neg (show ¬t.LosesSecond u from fun loses => lost loses.2.2), if_pos (by omega)]
        omega

end Instant

namespace Retry

theorem factor_lt (failures : Nat) : factor failures < Width.limit32 := by
  unfold factor Width.limit32
  split
  · rename_i small
    exact Nat.pow_lt_pow_right (by decide) small
  · decide

theorem factor_mono {m n : Nat} (h : m ≤ n) : factor m ≤ factor n := by
  unfold factor
  split
  · rename_i small
    split
    · exact Nat.pow_le_pow_right (by decide) (by omega)
    · exact Nat.le_sub_one_of_lt (Nat.pow_lt_pow_right (m := m - 1) (n := 32) (by decide) small)
  · exact Nat.le_of_eq (if_neg (by omega)).symm

namespace Policy

variable {p : Policy} {failures extra : Nat}

theorem baseDelayFor_nanos (p : Policy) (failures : Nat) :
    (p.baseDelayFor failures).nanos =
      min (p.baseDelay.nanos * factor failures) p.maxDelay.nanos := by
  unfold baseDelayFor Duration.scale?
  rw [Duration.shorter_nanos]
  by_cases fits : p.baseDelay.nanos * factor failures < Duration.limit
  · rw [Duration.ofNanos?_eq_some fits, Option.getD_some]
  · have short := p.maxDelay.nanos_lt
    have tooLong : Duration.ofNanos? (p.baseDelay.nanos * factor failures) = none := dif_neg fits
    rw [tooLong, Option.getD_none]
    omega

theorem baseDelayFor_le (p : Policy) (failures : Nat) : p.baseDelayFor failures ≤ p.maxDelay :=
  Duration.shorter_le_right _ _

theorem baseDelayFor_mono (p : Policy) {m n : Nat} (h : m ≤ n) :
    p.baseDelayFor m ≤ p.baseDelayFor n := by
  have grows := Nat.mul_le_mul_left p.baseDelay.nanos (factor_mono h)
  show (p.baseDelayFor m).nanos ≤ (p.baseDelayFor n).nanos
  rw [baseDelayFor_nanos, baseDelayFor_nanos]
  omega

theorem baseDelayFor_doubles (positive : 0 < failures)
    (exact : failures ≤ 32 ∨ p.maxDelay.nanos ≤ p.baseDelay.nanos * (2 ^ 32 - 1)) :
    (p.baseDelayFor failures).nanos =
      min (p.baseDelay.nanos * 2 ^ (failures - 1)) p.maxDelay.nanos := by
  rw [baseDelayFor_nanos]
  by_cases small : failures ≤ 32
  · have power : factor failures = 2 ^ (failures - 1) := if_pos (by omega)
    rw [power]
  · have greatest : factor failures = 2 ^ 32 - 1 := if_neg (by omega)
    have beyond : 2 ^ 32 - 1 ≤ 2 ^ (failures - 1) :=
      Nat.le_trans (Nat.sub_le _ _) (Nat.pow_le_pow_right (by decide) (by omega))
    have longest := exact.resolve_left small
    have further := Nat.mul_le_mul_left p.baseDelay.nanos beyond
    rw [greatest, Nat.min_eq_right longest, Nat.min_eq_right (Nat.le_trans longest further)]

/-- A number that can be the random part of the delay; where none is drawn, it is not looked at. -/
def Draws (p : Policy) (failures extra : Nat) : Prop :=
  p.jitterBound failures = 0 ∨ extra < p.jitterBound failures

theorem jitterBound_le_half (p : Policy) (failures : Nat) :
    2 * (p.jitterBound failures * 1000000) ≤ p.baseDelay.nanos := by
  unfold jitterBound Duration.millis
  split
  · have half := Nat.min_le_left (min (p.baseDelay.nanos / 1000000) (Width.limit64 - 1) / 2)
      (if (p.maxDelay.nanos - (p.baseDelayFor failures).nanos) / 1000000 < Width.limit64 then
        (p.maxDelay.nanos - (p.baseDelayFor failures).nanos) / 1000000 else 0)
    have whole := Nat.min_le_left (p.baseDelay.nanos / 1000000) (Width.limit64 - 1)
    simp only []
    omega
  · omega

theorem jitterBound_le_room (p : Policy) (failures : Nat) :
    p.jitterBound failures * 1000000 ≤ p.maxDelay.nanos - (p.baseDelayFor failures).nanos := by
  have room : p.jitterBound failures ≤
      (p.maxDelay.nanos - (p.baseDelayFor failures).nanos) / 1000000 := by
    unfold jitterBound
    split
    · refine Nat.le_trans (Nat.min_le_right _ _) ?_
      split <;> omega
    · exact Nat.zero_le _
  omega

theorem delayFor?_eq (drawn : p.Draws failures extra) : ∃ delay,
    p.delayFor? failures extra = some delay ∧ delay ≤ p.maxDelay ∧
    delay.nanos = (p.baseDelayFor failures).nanos +
      if p.jitterBound failures = 0 then 0 else extra * 1000000 := by
  have base : (p.baseDelayFor failures).nanos ≤ p.maxDelay.nanos := p.baseDelayFor_le failures
  unfold delayFor?
  split
  · exact ⟨_, rfl, base, rfl⟩
  · rename_i some
    have below := drawn.resolve_left some
    have room := p.jitterBound_le_room failures
    have most := p.maxDelay.nanos_lt
    have fits : (p.baseDelayFor failures).nanos + extra * 1000000 ≤ p.maxDelay.nanos := by omega
    have millis : (Duration.ofMillis extra).nanos = extra * 1000000 :=
      Duration.ofNanos_nanos (by omega)
    unfold Duration.add?
    rw [millis, Duration.ofNanos?_eq_some (by omega)]
    exact ⟨_, rfl, fits, rfl⟩

theorem decide?_of_left {delay : Duration} {now : Instant} (left : failures < p.maxAttempts)
    (made : p.delayFor? failures extra = some delay) :
    p.decide? failures extra now = (now.add? delay).map (.retryAt delay) := by
  unfold decide?
  rw [if_neg (by omega), made]

end Policy
end Retry

/-- The request is no draw, or the draw of a random part for the delay after that many failures,
with something to draw from. -/
def Request.DrawsPart (policy : Retry.Policy) (failures : Nat) (r : Request) : Prop :=
  ∀ bound, r = .draw bound → bound = policy.jitterBound failures ∧ 0 < bound

namespace Service

open Prog

theorem applied_draws (policy : Retry.Policy) (current : Notification) (outcome : Outcome)
    (time : Instant) : (applied policy current outcome time).Only
      (Request.DrawsPart policy (attemptsAfter policy current)) := by
  unfold applied
  cases outcome with
  | success => trivial
  | permanent message => trivial
  | transient message =>
      let kind := Request.DrawsPart policy (attemptsAfter policy current)
      have drawn {α : Type} {f : Nat → Prog α} {bound : Nat}
          (drawn : bound = 0 ∨ bound = policy.jitterBound (attemptsAfter policy current))
          (h : ∀ extra, (f extra).Only kind) :
          Only kind (if bound = 0 then pure 0 >>= f else draw bound >>= f) := by
        split
        · exact h 0
        · rename_i positive
          refine ⟨?_, h⟩
          rintro _ ⟨rfl⟩
          exact ⟨drawn.resolve_left positive, Nat.pos_of_ne_zero positive⟩
      apply drawn
      · split
        · exact .inl rfl
        · exact .inr rfl
      intro extra
      apply only_orAbort
      intro decision
      cases decision with
      | giveUp => trivial
      | retryAt delay retryAt =>
          refine ⟨fun _ other => (nomatch other), ?_⟩
          intro reply
          match reply with
          | .error e => trivial
          | .ok _ => trivial

end Service

namespace Retry.Policy

/-- A delay that can come about after so many failures, and what is decided with it. -/
structure Delayed (p : Policy) (failures extra : Nat) (delay : Duration) (part : Nat) : Prop where
  made : p.delayFor? failures extra = some delay
  nanos : delay.nanos = (p.baseDelayFor failures).nanos + part
  most : delay ≤ p.maxDelay
  part_lt : part = 0 ∨ 2 * part < p.baseDelay.nanos
  part_eq_zero : p.jitter = false → part = 0
  giveUp_iff : ∀ now, p.decide? failures extra now = some .giveUp ↔ p.maxAttempts ≤ failures
  retryAt : failures < p.maxAttempts → ∀ now next, now.add? delay = some next →
    p.decide? failures extra now = some (.retryAt delay next)
  /-- The date is the delay from now, but for a second that is lost to a leap second. -/
  since : ∀ now next : Instant, now.add? delay = some next → next.since now =
    if now.LosesSecond next then (delay.nanos : Int) - 1000000000 else delay.nanos

/-- The arithmetic of backoff after so many failures. -/
structure Delays (p : Policy) (failures : Nat) : Prop where
  factor_lt : factor failures < Width.limit32
  base_le : p.baseDelayFor failures ≤ p.maxDelay
  base_mono : ∀ more, failures ≤ more → p.baseDelayFor failures ≤ p.baseDelayFor more
  base_doubles : 0 < failures →
    failures ≤ 32 ∨ p.maxDelay.nanos ≤ p.baseDelay.nanos * (2 ^ 32 - 1) →
    (p.baseDelayFor failures).nanos = min (p.baseDelay.nanos * 2 ^ (failures - 1)) p.maxDelay.nanos
  /-- A random part is drawn only below its bound. -/
  draws : ∀ current outcome time, (Service.applied p current outcome time).Only
    (Request.DrawsPart p (Service.attemptsAfter p current))
  delayed : ∀ extra, p.Draws failures extra → ∃ delay part, Delayed p failures extra delay part

/-- For every policy and every number of failures: the delay before any lengthening, the delay for
each random part that can be drawn, the decision at each reading, and the draws that are asked
for. -/
theorem delays_exact (p : Policy) (failures : Nat) : Delays p failures := by
  refine ⟨factor_lt failures, p.baseDelayFor_le failures, fun _ h => p.baseDelayFor_mono h,
    baseDelayFor_doubles, Service.applied_draws p, ?_⟩
  intro extra drawn
  obtain ⟨delay, made, most, length⟩ := delayFor?_eq drawn
  refine ⟨delay, _, made, length, most, ?_, ?_, fun _ => decide?_eq_giveUp, ?_, ?_⟩
  · have half := p.jitterBound_le_half failures
    split
    · exact .inl rfl
    · rename_i some
      have below := drawn.resolve_left some
      omega
  · intro plain
    exact if_pos (by simp [jitterBound, plain])
  · intro left now next added
    rw [decide?_of_left left made, added, Option.map_some]
  · exact fun now next added => Instant.since_eq_of_add? added

namespace Sample

def doubling : Policy := ⟨3, .ofSeconds 300, .ofSeconds 86400, true⟩

theorem firstSecond_le_leaping : Instant.firstSecond ≤ 1483228799 := by decide

theorem leaping_le_lastSecond : 1483228799 ≤ Instant.lastSecond := by decide

/-- 2016-12-31T23:59:60.5, within a leap second. -/
def leaping : Instant :=
  ⟨1483228799, 1500000000, firstSecond_le_leaping, leaping_le_lastSecond, by decide, by decide⟩

end Sample

/-- The second delay is twice the first one, and half of the first one more. -/
theorem delays_exact_of_doubling :
    Sample.doubling.Draws 2 149999 ∧ 2 < Sample.doubling.maxAttempts ∧
      Sample.doubling.delayFor? 2 149999 = some ⟨749999000000, by decide⟩ ∧
      (Sample.doubling.baseDelayFor 2).nanos = min (300000000000 * 2) 86400000000000 ∧
      Sample.doubling.decide? 2 149999 (.ofSecond 0) =
        some (.retryAt ⟨749999000000, by decide⟩
          ⟨749, 999000000, by decide, by decide, by decide, by decide⟩) := by
  have drawn : Sample.doubling.Draws 2 149999 := .inr (by decide)
  have left : 2 < Sample.doubling.maxAttempts := by decide
  have delays := delays_exact Sample.doubling 2
  obtain ⟨delay, _, delayed⟩ := delays.delayed 149999 drawn
  have length : Sample.doubling.delayFor? 2 149999 = some ⟨749999000000, by decide⟩ := by decide
  obtain rfl := Option.some.inj (delayed.made.symm.trans length)
  have decided := delayed.retryAt left (.ofSecond 0) _ rfl
  exact ⟨drawn, left, length, delays.base_doubles (by decide) (.inl (by decide)), decided⟩

/-- Five minutes after a reading within a leap second, the difference is a second less. -/
theorem second_lost_in_leap_second : ∃ delay next, 1 < Sample.doubling.maxAttempts ∧
    Sample.doubling.Draws 1 0 ∧ Sample.doubling.delayFor? 1 0 = some delay ∧
    Sample.leaping.add? delay = some next ∧
    Sample.doubling.decide? 1 0 Sample.leaping = some (.retryAt delay next) ∧
    next.since Sample.leaping = delay.nanos - 1000000000 ∧
    next.since Sample.leaping ≠ delay.nanos :=
  ⟨_, _, by decide, .inr (by decide), rfl, rfl, rfl, by decide, by decide⟩

end Retry.Policy
end Courier
