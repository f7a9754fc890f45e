import Courier.Proofs.Backoff
import Courier.Proofs.Unwelcome
import Courier.Proofs.WaitingTimes

namespace Courier

namespace Duration

theorem ofSeconds_nanos {n : Nat} (h : n < 18446744073709551616) :
    (ofSeconds n).nanos = n * 1000000000 := by
  refine ofNanos_nanos ?_
  unfold limit
  omega

theorem seconds_ofSeconds (n : Nat) : (ofSeconds n).seconds = min n 18446744073709551615 := by
  unfold ofSeconds ofNanos seconds
  split
  · rename_i fits
    unfold limit at fits
    show n * 1000000000 / 1000000000 = _
    omega
  · rename_i exceeded
    unfold limit at exceeded
    show (limit - 1) / 1000000000 = _
    unfold limit
    omega

end Duration

namespace Instant

/-- The instant lies in one of the years from 0 to 9999. -/
def InYears (t : Instant) : Prop :=
  86400 * Date.dayNumber ⟨0, 1, 1⟩ ≤ t.second ∧ t.second < 86400 * Date.dayNumber ⟨10000, 1, 1⟩

theorem inYears_iff {t : Instant} :
    t.InYears ↔ -62167219200 ≤ t.second ∧ t.second ≤ 253402300799 := by
  have first : 86400 * Date.dayNumber ⟨0, 1, 1⟩ = -62167219200 := by decide
  have last : 86400 * Date.dayNumber ⟨10000, 1, 1⟩ = 253402300800 := by decide
  unfold InYears
  rw [first, last]
  omega

def lastOfYears : Instant := .ofSecond 253402300799

theorem add?_isSome {t : Instant} {d : Duration}
    (room : t.second + ((t.nano % 1000000000 + d.nanos) / 1000000000 : Nat) ≤ lastSecond) :
    (t.add? d).isSome := by
  have first := t.second_ge
  have leap := t.leap_second
  have last := t.second_le
  unfold add?
  split
  · rename_i within
    unfold ofParts?
    rw [dif_pos ⟨first, last, within.2, fun _ => leap within.1⟩]
    rfl
  · unfold ofParts?
    rw [dif_pos ⟨by omega, room, by omega, fun _ => by omega⟩]
    rfl

theorem seconds_of_add? {t u : Instant} {d : Duration} (made : t.add? d = some u)
    (whole : 1000000000 ≤ d.nanos) : t.second + d.seconds ≤ lastSecond := by
  have within := u.second_le
  unfold add? at made
  rw [if_neg (by omega)] at made
  have reached := (ofParts?_eq_some made).1
  unfold Duration.seconds
  omega

end Instant

namespace Retry.Policy

variable {p : Policy} {failures extra : Nat} {now : Instant}

/-- Within these years, and with delays of a day at most, there is a date for every next attempt. -/
theorem decide?_isSome (day : p.maxDelay ≤ Settings.longestDelay) (years : now.InYears)
    (drawn : p.jitterBound failures = 0 ∨ extra < p.jitterBound failures) :
    (p.decide? failures extra now).isSome := by
  unfold decide?
  split
  · rfl
  · obtain ⟨delay, made, most, _⟩ := delayFor?_eq drawn
    rw [made]
    have bound : delay.nanos ≤ 86400000000000 := Nat.le_trans most day
    have last := (Instant.inYears_iff.mp years).2
    have room : now.second + ((now.nano % 1000000000 + delay.nanos) / 1000000000 : Nat) ≤
        Instant.lastSecond := by
      unfold Instant.lastSecond
      omega
    rw [Option.isSome_map]
    exact Instant.add?_isSome room

end Retry.Policy

namespace Queue

variable {now : Instant} {d : Duration} {token : Uuid}

def single (job : Job) : Queue := ⟨1, [⟨0, job⟩], [], true⟩

theorem nextVisible_single {job : Job} (visible : job.visibleAt ≤ now) :
    ((single job).reclaim now).nextVisible now = some ⟨0, job⟩ := by
  simp [single, reclaim, expired, nextVisible, visible, firstOf]

theorem outOfRange_single {job : Job} (visible : job.visibleAt ≤ now) (beyond : now.add? d = none) :
    ((single job).tryLease now d token).1 = .outOfRange :=
  tryLease_outOfRange_iff.mpr ⟨by rw [nextVisible_single visible]; rfl, beyond⟩

end Queue

namespace Settings

open RateLimit (Limiter Check longestWait)

section Accepted

variable {α : Type} [RateLimit.Amount α] {s : Settings α}

theorem ite_error_eq_ok {p : Prop} [Decidable p] {e : SettingsError}
    {rest : Except SettingsError Unit} :
    (if p then .error e else rest) = .ok () ↔ ¬p ∧ rest = .ok () := by
  by_cases found : p <;> simp [found]

theorem of_validate (accepted : s.validate = .ok ()) :
    0 < s.rateCapacity ∧ RateLimit.Amount.isUsable s.rateRefillPerMinute = true ∧
      s.sendLimitSeconds < s.leaseSeconds := by
  simp only [validate, ite_error_eq_ok] at accepted
  obtain ⟨_, _, tokens, usable, longer, _⟩ := accepted
  exact ⟨Nat.pos_of_ne_zero tokens, by simpa using usable, Nat.lt_of_not_le longer⟩

theorem buckets_of_validate (accepted : s.validate = .ok ()) :
    s.buckets =
      .ok ⟨s.rateCapacity, s.rateRefillPerMinute / RateLimit.Amount.ofNat 60, s.rateTtl⟩ := by
  obtain ⟨tokens, usable, _⟩ := of_validate accepted
  unfold buckets RateLimit.Config.perMinute
  rw [if_neg (by omega), if_pos usable]

/-- A lease may be this long, in seconds, to end before the last date when it begins in the year
9999. -/
def longestLease : Nat := 7956864576000

/-- No lease is out of range, in the years from 0 to 9999, exactly if leases are not too long. -/
theorem leases_in_range_iff (accepted : s.validate = .ok ()) :
    (∀ (q : Queue) (now : Instant) (token : Uuid), now.InYears →
      (q.tryLease now s.leaseFor token).1 ≠ .outOfRange) ↔ s.leaseSeconds ≤ longestLease := by
  obtain ⟨_, _, longer⟩ := of_validate accepted
  constructor
  · intro never
    by_contra long
    -- a job that is due in the last second of these years
    let job : Job := .immediate ⟨0#128⟩ 0 Instant.lastOfYears
    have years : Instant.lastOfYears.InYears := Instant.inYears_iff.mpr (by decide)
    have beyond : Instant.lastOfYears.add? s.leaseFor = none := by
      cases made : Instant.lastOfYears.add? s.leaseFor with
      | none => rfl
      | some u =>
          have seconds := Duration.seconds_ofSeconds s.leaseSeconds
          have start : Instant.lastOfYears.second = 253402300799 := by decide
          have reached := Instant.seconds_of_add? made (by
            unfold Duration.seconds at seconds
            unfold leaseFor
            omega)
          unfold longestLease at long
          unfold leaseFor Instant.lastSecond at reached
          omega
    exact never (.single job) Instant.lastOfYears ⟨0#128⟩ years
      (Queue.outOfRange_single (Instant.le_refl _) beyond)
  · intro short q now token years out
    have last := (Instant.inYears_iff.mp years).2
    unfold longestLease at short
    have exact : s.leaseFor.nanos = s.leaseSeconds * 1000000000 :=
      Duration.ofSeconds_nanos (by omega)
    have made : (now.add? s.leaseFor).isSome := by
      apply Instant.add?_isSome
      unfold Instant.lastSecond
      omega
    rw [(Queue.tryLease_outOfRange_iff.mp out).2] at made
    cases made

end Accepted

def withRefill {α β : Type} (s : Settings α) (refill : β) : Settings β :=
  { s with rateRefillPerMinute := refill }

theorem app_of_validate {s : Settings Float} (accepted : s.validate = .ok ()) (v : Auth.Validator) :
    ∃ app, s.app v = .ok app ∧ app.policy = s.policy := by
  unfold app
  rw [buckets_of_validate accepted]
  exact ⟨_, rfl, rfl⟩

/-- All checks are answered, whatever the clock shows in the years from 0 to 9999, exactly if a
token takes no longer to come than the longest duration. -/
theorem checks_answered_iff {s : Settings ℚ} (accepted : s.validate = .ok ()) (failOpen : Bool) :
    ∃ c, s.buckets = .ok c ∧
      ((∀ checks : List Check, (∀ q ∈ checks, q.time.InYears) →
          (⟨c, failOpen⟩ : Limiter ℚ).AnswersAll .empty checks) ↔
        60 / s.rateRefillPerMinute < longestWait) := by
  obtain ⟨tokens, usable, _⟩ := of_validate accepted
  have positive : 0 < s.rateRefillPerMinute := of_decide_eq_true usable
  have made := buckets_of_validate accepted
  have sixty : (RateLimit.Amount.ofNat 60 : ℚ) = 60 := rfl
  rw [sixty] at made
  refine ⟨_, made, ?_⟩
  have early : (Instant.ofSecond 0).InYears := Instant.inYears_iff.mpr (by decide)
  have late : (Instant.ofSecond 1).InYears := Instant.inYears_iff.mpr (by decide)
  rw [RateLimit.answersAll_iff tokens (div_pos positive (by norm_num)) early late (by decide)
    (by decide), one_div_div]

/-- What accepted settings mean for the dates and durations of the pipeline, in the years from 0 to
9999. The web interface can be made; there is a date for the next attempt after any number of
failures, whatever the random part of the delay; every job can be leased exactly if leases are no
longer than there are dates left after these years; and with the refill as an exact number, every
check of the rate limit is answered exactly if a token takes no longer to come than the longest
duration. -/
theorem accepted_settings_run {s : Settings Float} (accepted : s.validate = .ok ()) :
    (∀ v, ∃ app, s.app v = .ok app ∧ app.policy = s.policy) ∧
      (∀ (failures extra : Nat) (now : Instant), now.InYears →
        s.policy.jitterBound failures = 0 ∨ extra < s.policy.jitterBound failures →
          (s.policy.decide? failures extra now).isSome) ∧
      ((∀ (q : Queue) (now : Instant) (token : Uuid), now.InYears →
          (q.tryLease now s.leaseFor token).1 ≠ .outOfRange) ↔ s.leaseSeconds ≤ longestLease) ∧
      ∀ refill : ℚ, (s.withRefill refill).validate = .ok () → ∀ failOpen, ∃ c,
        (s.withRefill refill).buckets = .ok c ∧
          ((∀ checks : List Check, (∀ q ∈ checks, q.time.InYears) →
              (⟨c, failOpen⟩ : Limiter ℚ).AnswersAll .empty checks) ↔
                60 / refill < longestWait) := by
  refine ⟨app_of_validate accepted, fun failures extra now years drawn => ?_,
    leases_in_range_iff accepted, fun refill exact failOpen => ?_⟩
  · have day : s.policy.maxDelay ≤ longestDelay := Nat.le_refl _
    exact Retry.Policy.decide?_isSome day years drawn
  · exact checks_answered_iff exact failOpen

open Http.Sample (settings slowest)

/-- With leases of a minute and ten tokens a minute, no date and no duration is out of range. -/
theorem accepted_settings_run_with_ten_tokens :
    (settings 10).validate = .ok () ∧ ((settings 10).withRefill (10 : ℚ)).validate = .ok () ∧
      (∀ (q : Queue) (now : Instant) (token : Uuid), now.InYears →
        (q.tryLease now (settings 10).leaseFor token).1 ≠ .outOfRange) ∧
      ∃ c, ((settings 10).withRefill (10 : ℚ)).buckets = .ok c ∧
        ∀ checks : List Check, (∀ q ∈ checks, q.time.InYears) →
          (⟨c, true⟩ : Limiter ℚ).AnswersAll .empty checks := by
  have usable : RateLimit.Amount.isUsable (10 : Float) = true := by decide +kernel
  have accepted : (settings 10).validate = .ok () := Http.Sample.accepted_settings usable
  have exact : ((settings 10).withRefill (10 : ℚ)).validate = .ok () := by rfl
  obtain ⟨_, _, leases, checks⟩ := accepted_settings_run accepted
  obtain ⟨c, made, answered⟩ := checks 10 exact true
  refine ⟨accepted, exact, leases.mpr (by decide), c, made, answered.mpr ?_⟩
  unfold longestWait
  norm_num

/-- Settings that are accepted, and under which a lease has no end that is a date, and the second of
two checks at the same time waits longer than any duration. -/
theorem accepted_settings_break_off :
    let s := { settings slowest with leaseSeconds := 18446744073709551 }
    s.validate = .ok () ∧ (Instant.ofSecond 0).InYears ∧
      ((Queue.single (.immediate ⟨0#128⟩ 0 (.ofSecond 0))).tryLease (.ofSecond 0) s.leaseFor
        ⟨0#128⟩).1 = .outOfRange ∧
      ∃ c, s.buckets = .ok c ∧
        ¬(⟨c, true⟩ : Limiter Float).AnswersAll .empty [⟨"k", .ofSecond 0⟩,
          ⟨"k", .ofSecond 0⟩] := by
  intro s
  have usable : RateLimit.Amount.isUsable slowest = true := by decide +kernel
  have accepted : s.validate = .ok () := by
    have usable : RateLimit.Amount.isUsable s.rateRefillPerMinute = true := usable
    simp only [validate, usable]
    rfl
  have beyond : (Instant.ofSecond 0).add? s.leaseFor = none := by decide +kernel
  refine ⟨accepted, Instant.inYears_iff.mpr (by decide),
    Queue.outOfRange_single (Instant.le_refl _) beyond, _, buckets_of_validate accepted, ?_⟩
  rintro ⟨_, second, _⟩
  revert second
  decide +kernel

end Settings
end Courier
