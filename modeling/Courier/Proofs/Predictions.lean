import Courier.Proofs.KeyIndependence
import Courier.Proofs.WaitingTimes
import Courier.Width

/-!
What an answer of the rate limiter says about the checks to come, in exact arithmetic. The tokens
that it calls remaining are the checks that the client can still make at once, and the time that it
tells a client to wait is the time after which a check is allowed, and before which it is refused.

The last needs a bucket that is kept in the meantime. A sweep drops one that has been idle for long
enough by the reading of the clock at which it comes; only within a leap second can that reading be
further from the last check than a reading after it.
-/
namespace Courier

theorem Instant.since_self (t : Instant) : t.since t = 0 := by simp [since]

theorem Instant.elapsedSince_nanos (t earlier : Instant) :
    (t.elapsedSince earlier).nanos = (t.since earlier).toNat := by
  have first := earlier.second_ge
  have last := t.second_le
  have short := t.nano_lt
  unfold elapsedSince
  refine Duration.ofNanos_nanos ?_
  unfold firstSecond at first
  unfold lastSecond at last
  unfold since Duration.limit
  dsimp only
  split
  · omega
  · split <;> omega

namespace RateLimit

namespace Buckets

variable {α : Type} {c : Config α} {b : Bucket α} {bs : Buckets α} {key : String}
  {now t : Instant} {checks others : List Check}

/-- Every bucket was last filled at such a time. -/
def FilledAt (times : Instant → Prop) (bs : Buckets α) : Prop :=
  ∀ e ∈ bs.entries, times e.2.refilledAt

theorem filledAt_empty {times : Instant → Prop} : FilledAt times (.empty : Buckets α) :=
  List.forall_mem_nil _

theorem lookup_swept_of_found (c : Config α) (now : Instant) (once : (keys bs.entries).Nodup)
    (found : bs.find? key = some b) :
    (bs.swept c now).lookup key = some b ∨
      ((bs.swept c now).lookup key = none ∧ c.isIdle b now = true) := by
  rcases lookup_swept c now key once with same | ⟨gone, b', same, idle⟩
  · exact .inl (same.trans found)
  · cases found.symm.trans same
    exact .inr ⟨gone, idle⟩

variable [Amount α]

theorem FilledAt.acquire {times : Instant → Prop} (filled : FilledAt times bs) (c : Config α)
    (key : String) (atNow : times now) : FilledAt times (bs.acquire c key now).2 := by
  intro e mem
  rcases mem_putEntry mem with rfl | old
  · rcases refilledAt_bucketAt c now ((bs.swept c now).lookup key) with same | ⟨b, found, _, same⟩
    · exact same.symm ▸ atNow
    · exact same.symm ▸ filled _ (mem_of_mem_swept (mem_of_lookup found))
  · exact filled e (mem_of_mem_swept old)

theorem FilledAt.after {times : Instant → Prop} (filled : FilledAt times bs)
    (within : ∀ q ∈ checks, times q.time) : FilledAt times (bs.after c checks) := by
  induction checks generalizing bs with
  | nil => exact filled
  | cons q rest ih =>
      obtain ⟨first, within⟩ := List.forall_mem_cons.mp within
      exact ih (filled.acquire c q.key first) within

theorem find?_acquire_self (filled : FilledAt (· ≤ now) bs) (key : String) :
    (bs.acquire c key now).2.find? key = some ⟨(bs.acquire c key now).1.tokens, now⟩ := by
  have time : (bucketAt c now ((bs.swept c now).lookup key)).refilledAt = now := by
    cases found : (bs.swept c now).lookup key with
    | none => rfl
    | some b =>
        have past : b.refilledAt ≤ now := filled _ (mem_of_mem_swept (mem_of_lookup found))
        by_cases idle : c.isIdle b now = true
        · simp only [bucketAt, if_pos idle]
        · simp only [bucketAt, if_neg idle, if_pos past]
  simp only [acquire, find?, lookup_putEntry_self, time]

theorem find?_acquire_of_ne {asked : String} (other : asked ≠ key) :
    (bs.acquire c asked now).2.find? key = (bs.swept c now).lookup key := by
  simp only [acquire, find?, lookup_putEntry_of_ne (Ne.symm other)]

theorem nodup_keys_acquire (once : (keys bs.entries).Nodup) :
    (keys (bs.acquire c key now).2.entries).Nodup :=
  nodup_keys_putEntry (nodup_keys_swept once)

theorem find?_after_of_none (once : (keys bs.entries).Nodup) (notOf : ∀ q ∈ others, q.key ≠ key)
    (missing : bs.find? key = none) : (bs.after c others).find? key = none := by
  induction others generalizing bs with
  | nil => exact missing
  | cons q rest ih =>
      obtain ⟨other, notOf⟩ := List.forall_mem_cons.mp notOf
      refine ih (nodup_keys_acquire once) notOf ?_
      rw [find?_acquire_of_ne other]
      rcases lookup_swept c q.time key once with same | ⟨gone, _⟩
      · exact same.trans missing
      · exact gone

theorem find?_after_of_found (once : (keys bs.entries).Nodup) (notOf : ∀ q ∈ others, q.key ≠ key)
    (found : bs.find? key = some b) : (bs.after c others).find? key = some b ∨
      ((bs.after c others).find? key = none ∧ ∃ q ∈ others, c.isIdle b q.time = true) := by
  induction others generalizing bs with
  | nil => exact .inl found
  | cons q rest ih =>
      obtain ⟨other, notOf⟩ := List.forall_mem_cons.mp notOf
      have once' : (keys (bs.acquire c q.key q.time).2.entries).Nodup := nodup_keys_acquire once
      rcases lookup_swept_of_found c q.time once found with kept | ⟨gone, idle⟩
      · rcases ih once' notOf ((find?_acquire_of_ne other).trans kept) with
          kept | ⟨gone, later, mem, idle⟩
        · exact .inl kept
        · exact .inr ⟨gone, later, List.mem_cons_of_mem _ mem, idle⟩
      · have dropped : ((bs.acquire c q.key q.time).2.after c rest).find? key = none :=
          find?_after_of_none once' notOf ((find?_acquire_of_ne other).trans gone)
        exact .inr ⟨dropped, q, List.mem_cons_self, idle⟩

/-- What a request of a key finds after requests of others. -/
theorem lookup_swept_after (c : Config α) (now : Instant) (once : (keys bs.entries).Nodup)
    (notOf : ∀ q ∈ others, q.key ≠ key) (found : bs.find? key = some b) :
    ((bs.after c others).swept c now).lookup key = some b ∨
      (((bs.after c others).swept c now).lookup key = none ∧
        (c.isIdle b now = true ∨ ∃ q ∈ others, c.isIdle b q.time = true)) := by
  have once' : (keys (bs.after c others).entries).Nodup := nodup_keys_after c others once
  rcases find?_after_of_found once notOf found with kept | ⟨gone, idle⟩
  · rcases lookup_swept_of_found c now once' kept with kept | ⟨gone, idle⟩
    · exact .inl kept
    · exact .inr ⟨gone, .inl idle⟩
  · rcases lookup_swept c now key once' with same | ⟨missing, _⟩
    · exact .inr ⟨same.trans gone, .inr idle⟩
    · exact .inr ⟨missing, .inr idle⟩

end Buckets

variable {c : Config ℚ} {l : Limiter ℚ} {b : Bucket ℚ} {bs : Buckets ℚ} {key : String}
  {now t u : Instant} {checks more others : List Check}

theorem Config.not_isIdle_same (lasting : 0 < c.idleTtl.nanos) {tokens : ℚ} :
    ¬c.isIdle ⟨tokens, t⟩ t = true := by
  rw [isIdle_iff, Instant.since_self]
  omega

namespace Buckets

/-- A bucket that is kept holds what it held and what has flowed in since, as far as there is
room. -/
theorem tokens_bucketAt (busy : ¬c.isIdle b u = true) : (bucketAt c u (some b)).tokens =
    min (b.tokens + ((u.since b.refilledAt).toNat : ℚ) / 1000000000 * c.refillPerSecond)
      c.capacity := by
  simp only [bucketAt, if_neg busy, Config.refill_exact, Instant.elapsedSince_nanos]

theorem tokens_bucketAt_le (c : Config ℚ) (now : Instant) (o : Option (Bucket ℚ)) :
    (bucketAt c now o).tokens ≤ c.capacity := by
  cases o with
  | none => exact (Config.refill_full c).le
  | some b =>
      by_cases idle : c.isIdle b now = true
      · simp only [bucketAt, if_pos idle]
        exact (Config.refill_full c).le
      · rw [tokens_bucketAt idle]
        exact min_le_right _ _

theorem acquired_iff : (bs.acquire c key now).1.acquired = true ↔
    1 ≤ (bucketAt c now ((bs.swept c now).lookup key)).tokens := by
  simp only [acquire]
  rcases take_exact (bucketAt c now ((bs.swept c now).lookup key)) with
    ⟨token, taken⟩ | ⟨less, taken⟩
  · simp [taken, token]
  · simp [taken, less]

theorem tokens_acquire_le : (bs.acquire c key now).1.tokens ≤ c.capacity := by
  have filled := tokens_bucketAt_le c now ((bs.swept c now).lookup key)
  simp only [acquire]
  rcases take_exact (bucketAt c now ((bs.swept c now).lookup key)) with ⟨_, taken⟩ | ⟨_, taken⟩
  · rw [taken]
    linarith
  · rw [taken]
    exact filled

theorem tokens_lt_one_of_refused (refused : (bs.acquire c key now).1.acquired = false) :
    (bs.acquire c key now).1.tokens < 1 := by
  simp only [acquire] at refused ⊢
  rcases take_exact (bucketAt c now ((bs.swept c now).lookup key)) with ⟨_, taken⟩ | ⟨less, taken⟩
  · rw [taken] at refused
    cases refused
  · rw [taken]
    exact less

theorem bucketAt_same (lasting : 0 < c.idleTtl.nanos) {tokens : ℚ} (fits : tokens ≤ c.capacity) :
    bucketAt c t (some ⟨tokens, t⟩) = ⟨tokens, t⟩ := by
  have nothing : (t.elapsedSince t).nanos = 0 := by
    rw [Instant.elapsedSince_nanos, Instant.since_self]
    rfl
  simp only [bucketAt, if_neg (Config.not_isIdle_same lasting), Config.refill_exact, nothing,
    if_pos (Instant.le_refl t)]
  simp [fits]

theorem acquire_same (lasting : 0 < c.idleTtl.nanos) (once : (keys bs.entries).Nodup) {tokens : ℚ}
    (found : bs.find? key = some ⟨tokens, t⟩) (fits : tokens ≤ c.capacity) :
    (bs.acquire c key t).1 = take ⟨tokens, t⟩ ∧
      (bs.acquire c key t).2.find? key = some ⟨(take ⟨tokens, t⟩ : Grant ℚ).tokens, t⟩ := by
  have filled : bucketAt c t ((bs.swept c t).lookup key) = ⟨tokens, t⟩ := by
    rcases lookup_swept_of_found c t once found with kept | ⟨_, idle⟩
    · rw [kept, bucketAt_same lasting fits]
    · exact absurd idle (Config.not_isIdle_same lasting)
  constructor
  · simp only [acquire, filled]
  · simp only [acquire, find?, lookup_putEntry_self, filled]

end Buckets

namespace Limiter

def answersTo {α : Type} [Amount α] (l : Limiter α) (key : String) :
    Buckets α → List Check → List (Option (Except Error Admission))
  | _, [] => []
  | bs, q :: rest =>
    let (answer, after) := l.serve bs q
    if q.key = key then answer :: l.answersTo key after rest else l.answersTo key after rest

/-- At the time at which the bucket was filled, as many checks are allowed as there are whole tokens
in it, and those come first. -/
theorem allows_answersTo (lasting : 0 < l.config.idleTtl.nanos)
    (once : (Buckets.keys bs.entries).Nodup) {tokens : ℚ}
    (found : bs.find? key = some ⟨tokens, t⟩) (fits : tokens ≤ l.config.capacity)
    (atOnce : ∀ q ∈ more, q.time = t) {i : ℕ} {answer : Option (Except Error Admission)}
    (given : (l.answersTo key bs more)[i]? = some answer) :
    allows answer = decide ((i : ℚ) + 1 ≤ tokens) := by
  induction more generalizing bs tokens i with
  | nil => cases given
  | cons q rest ih =>
      obtain ⟨asked, time⟩ := q
      obtain ⟨rfl, atOnce⟩ := List.forall_mem_cons.mp atOnce
      have once' : (Buckets.keys (bs.acquire l.config asked time).2.entries).Nodup :=
        Buckets.nodup_keys_acquire once
      by_cases own : asked = key
      · subst own
        obtain ⟨granted, left⟩ := Buckets.acquire_same lasting once found fits
        have allowed := allows_serve l bs ⟨asked, time⟩
        rw [granted] at allowed
        simp only [answersTo, if_true] at given
        rcases Buckets.take_exact ⟨tokens, time⟩ with ⟨token, taken⟩ | ⟨less, taken⟩
        · rw [taken] at allowed left
          cases i with
          | zero =>
              obtain rfl := Option.some.inj given
              simpa [allowed] using token
          | succ i =>
              rw [ih once' left (by linarith) atOnce given, decide_eq_decide]
              push_cast
              constructor <;> intro h <;> linarith
        · rw [taken] at allowed left
          cases i with
          | zero =>
              obtain rfl := Option.some.inj given
              simpa [allowed] using less
          | succ i =>
              have many : (0 : ℚ) ≤ i := Nat.cast_nonneg i
              rw [ih once' left fits atOnce given, decide_eq_decide]
              push_cast
              constructor <;> intro h <;> linarith
      · have left : (bs.acquire l.config asked time).2.find? key = some ⟨tokens, time⟩ := by
          rw [Buckets.find?_acquire_of_ne own]
          exact (Buckets.lookup_swept_of_found _ _ once found).resolve_right fun gone =>
            Config.not_isIdle_same lasting gone.2
        simp only [answersTo, if_neg own] at given
        exact ih once' left fits atOnce given

/-- Buckets in memory can always be reached, so no check ends in an error. -/
theorem ok_of_isSome {q : Check} (answered : (l.serve bs q).1.isSome) :
    ∃ a, (l.serve bs q).1 = some (.ok a) := by
  obtain ⟨_, given⟩ := Option.isSome_iff_exists.mp answered
  obtain ⟨a, _, same⟩ := Option.map_eq_some_iff.mp given
  exact ⟨a, same ▸ given⟩

/-- What an answer says about the grant that it means. -/
theorem of_serve {q : Check} {a : Admission} (answered : (l.serve bs q).1 = some (.ok a)) :
    let grant := (bs.acquire l.config q.key q.time).1
    a.allowed = grant.acquired ∧ a.remaining = Amount.whole grant.tokens ∧
      (grant.acquired = false → l.config.untilToken? grant.tokens = some a.retryAfter) := by
  simp only [serve, admission?, Admission.ofGrant?] at answered
  generalize (bs.acquire l.config q.key q.time).1 = grant at answered ⊢
  obtain ⟨acquired, tokens⟩ := grant
  cases acquired with
  | true =>
      cases answered
      refine ⟨rfl, rfl, ?_⟩
      intro refused
      cases refused
  | false =>
      obtain ⟨_, given, made⟩ := Option.map_eq_some_iff.mp answered
      obtain ⟨wait, due, rfl⟩ := Option.map_eq_some_iff.mp given
      cases made
      exact ⟨rfl, rfl, fun _ => due⟩

end Limiter

/-- Fewer checks than whole tokens leave a token for one more. -/
theorem lt_whole_iff {x : ℚ} (small : x < 4294967296) {i : ℕ} :
    i < Amount.whole x ↔ (i : ℚ) + 1 ≤ x := by
  have floor : (i : ℚ) + 1 ≤ x ↔ (i : ℤ) + 1 ≤ ⌊x⌋ := by
    rw [Int.le_floor]
    push_cast
    exact Iff.rfl
  have most : ⌊x⌋ < 4294967296 := Int.floor_lt.mpr (by exact_mod_cast small)
  have whole : Amount.whole x = min ⌊x⌋.toNat 4294967295 := rfl
  rw [floor, whole]
  omega

theorem near_of_toDuration? {x : ℚ} {d : Duration} (nonneg : 0 ≤ x)
    (made : Amount.toDuration? x = some d) :
    2 * (x * 1000000000) ≤ 2 * d.nanos + 1 ∧ 2 * (d.nanos : ℚ) ≤ 2 * (x * 1000000000) + 1 := by
  have made : durationOfRat? x = some d := made
  unfold durationOfRat? Duration.ofNanos? at made
  rw [if_neg (not_lt.mpr nonneg)] at made
  split at made
  · obtain ⟨below, above⟩ := @Decimal.roundQuotient_near (x.num.toNat * 1000000000) x.den x.den_pos
    cases made
    have positive : (0 : ℚ) < x.den := Nat.cast_pos.mpr x.den_pos
    have below : (2 * (x.num.toNat * 1000000000) : ℚ) ≤
        2 * (x.den * Decimal.roundQuotient (x.num.toNat * 1000000000) x.den) + x.den := by
      exact_mod_cast below
    have above : (2 * (x.den * Decimal.roundQuotient (x.num.toNat * 1000000000) x.den) : ℚ) ≤
        2 * (x.num.toNat * 1000000000) + x.den := by
      exact_mod_cast above
    rw [num_eq_of_nonneg nonneg] at below above
    constructor
    · refine le_of_mul_le_mul_left ?_ positive
      linarith
    · refine le_of_mul_le_mul_left ?_ positive
      linarith
  · cases made

namespace Config

variable {tokens : ℚ} {wait : Duration}

theorem untilToken?_of_lt (less : tokens < 1) :
    c.untilToken? tokens = Amount.toDuration? ((1 - tokens) / c.refillPerSecond) := by
  have one : (Amount.ofNat 1 : ℚ) = 1 := Nat.cast_one
  unfold untilToken?
  rw [one, if_neg (not_le.mpr less)]

/-- A nanosecond after the time to wait, what has flowed in makes up a token. -/
theorem token_of_wait (refill : 0 < c.refillPerSecond) (less : tokens < 1)
    (due : c.untilToken? tokens = some wait) {passed : ℕ} (waited : wait.nanos + 1 ≤ passed) :
    1 ≤ tokens + (passed : ℚ) / 1000000000 * c.refillPerSecond := by
  rw [untilToken?_of_lt less] at due
  have missing : 0 ≤ (1 - tokens) / c.refillPerSecond := div_nonneg (by linarith) refill.le
  have near := (near_of_toDuration? missing due).1
  have waited : (wait.nanos : ℚ) + 1 ≤ passed := by exact_mod_cast waited
  have enough : (1 - tokens) / c.refillPerSecond ≤ (passed : ℚ) / 1000000000 := by
    rw [le_div_iff₀ (by norm_num)]
    linarith
  rw [div_le_iff₀ refill] at enough
  linarith

/-- More than a nanosecond before the end of the time to wait, it does not. -/
theorem no_token_before_wait (refill : 0 < c.refillPerSecond) (less : tokens < 1)
    (due : c.untilToken? tokens = some wait) {passed : ℕ}
    (early : passed = 0 ∨ passed + 1 < wait.nanos) :
    tokens + (passed : ℚ) / 1000000000 * c.refillPerSecond < 1 := by
  rw [untilToken?_of_lt less] at due
  have missing : 0 < (1 - tokens) / c.refillPerSecond := div_pos (by linarith) refill
  have near := (near_of_toDuration? missing.le due).2
  have short : (passed : ℚ) / 1000000000 < (1 - tokens) / c.refillPerSecond := by
    rcases early with rfl | early
    · simpa using missing
    · have early : (passed : ℚ) + 2 ≤ wait.nanos := by exact_mod_cast early
      rw [div_lt_iff₀ (by norm_num)]
      linarith
  have flowed := (lt_div_iff₀ refill).mp short
  linarith

/-- Whoever has more waits no longer, so there is a duration for that as well. -/
theorem untilToken?_isSome_of_le (refill : 0 < c.refillPerSecond) {more : ℚ} (le : tokens ≤ more)
    (less : more < 1) (due : c.untilToken? tokens = some wait) : (c.untilToken? more).isSome := by
  rw [untilToken?_of_lt (le.trans_lt less)] at due
  have missing : 0 ≤ (1 - more) / c.refillPerSecond := div_nonneg (by linarith) refill.le
  have shorter : (1 - more) / c.refillPerSecond ≤ (1 - tokens) / c.refillPerSecond := by
    gcongr
  have longest := (toDuration?_isSome_iff (missing.trans shorter)).mp (due ▸ rfl)
  rw [untilToken?_of_lt less]
  exact (toDuration?_isSome_iff missing).mpr (shorter.trans_lt longest)

end Config

namespace Limiter

variable {tokens : ℚ} {wait : Duration}

/-- Once the time to wait is over, and another nanosecond, there is a token, whether the bucket was
kept or not. -/
theorem allows_after_wait (someToken : 0 < l.config.capacity)
    (refill : 0 < l.config.refillPerSecond) (once : (Buckets.keys bs.entries).Nodup)
    (notOf : ∀ q ∈ others, q.key ≠ key) (found : bs.find? key = some ⟨tokens, t⟩)
    (less : tokens < 1) (due : l.config.untilToken? tokens = some wait)
    (waited : (wait.nanos : ℤ) + 1 ≤ u.since t) :
    allows (l.serve (bs.after l.config others) ⟨key, u⟩).1 = true := by
  have room : (1 : ℚ) ≤ l.config.capacity := by exact_mod_cast someToken
  have full : 1 ≤ l.config.refill l.config.full .zero := room.trans (Config.refill_full l.config).ge
  rw [allows_serve]
  refine Buckets.acquired_iff.mpr ?_
  rcases Buckets.lookup_swept_after l.config u once notOf found with kept | ⟨gone, _⟩
  · rw [kept]
    by_cases idle : l.config.isIdle ⟨tokens, t⟩ u = true
    · rw [Buckets.bucketAt_of_isIdle idle]
      exact full
    · have token : 1 ≤ tokens + ((u.since t).toNat : ℚ) / 1000000000 * l.config.refillPerSecond :=
        Config.token_of_wait refill less due (by omega)
      rw [Buckets.tokens_bucketAt idle]
      exact le_min token room
  · rw [gone]
    exact full

/-- Until a nanosecond before the time to wait is over, a check is refused, if nobody has found the
bucket idle. -/
theorem refuses_before_wait (refill : 0 < l.config.refillPerSecond)
    (once : (Buckets.keys bs.entries).Nodup) (notOf : ∀ q ∈ others, q.key ≠ key)
    (found : bs.find? key = some ⟨tokens, t⟩) (less : tokens < 1)
    (fits : tokens ≤ l.config.capacity) (due : l.config.untilToken? tokens = some wait)
    (early : u.since t < (wait.nanos : ℤ) - 1) (busy : u.since t < l.config.idleTtl.nanos)
    (kept : ∀ q ∈ others, q.time.since t < l.config.idleTtl.nanos) :
    ∃ a, (l.serve (bs.after l.config others) ⟨key, u⟩).1 = some (.ok a) ∧ a.allowed = false := by
  let filled := Buckets.bucketAt l.config u
    (((bs.after l.config others).swept l.config u).lookup key)
  have inside : tokens ≤ filled.tokens ∧ filled.tokens < 1 := by
    have notIdle : ¬l.config.isIdle ⟨tokens, t⟩ u = true := by
      rw [Config.isIdle_iff]
      exact not_le.mpr busy
    show tokens ≤ (Buckets.bucketAt _ _ _).tokens ∧ (Buckets.bucketAt _ _ _).tokens < 1
    rcases Buckets.lookup_swept_after l.config u once notOf found with
      same | ⟨_, idle | ⟨q, mem, idle⟩⟩
    · have short : tokens + ((u.since t).toNat : ℚ) / 1000000000 * l.config.refillPerSecond < 1 :=
        Config.no_token_before_wait refill less due (by omega)
      have flowed : 0 ≤ ((u.since t).toNat : ℚ) / 1000000000 * l.config.refillPerSecond :=
        mul_nonneg (div_nonneg (Nat.cast_nonneg _) (by norm_num)) refill.le
      rw [same, Buckets.tokens_bucketAt notIdle]
      exact ⟨le_min (by linarith) fits, (min_le_left _ _).trans_lt short⟩
    · exact absurd idle notIdle
    · rw [Config.isIdle_iff] at idle
      exact absurd (kept q mem) (not_lt.mpr idle)
  have refused : ((bs.after l.config others).acquire l.config key u).1 =
      ⟨false, filled.tokens⟩ := by
    rcases Buckets.take_exact filled with ⟨token, _⟩ | ⟨_, taken⟩
    · exact absurd token (not_le.mpr inside.2)
    · exact taken
  have answered : (l.serve (bs.after l.config others) ⟨key, u⟩).1.isSome := by
    refine serve_isSome_iff.mpr (.inr ?_)
    rw [refused]
    exact Config.untilToken?_isSome_of_le refill inside.1 inside.2 due
  obtain ⟨a, given⟩ := ok_of_isSome answered
  exact ⟨a, given, (of_serve given).1.trans (congrArg Grant.acquired refused)⟩

end Limiter

theorem Solvent.after (solvent : Solvent bs) (refill : 0 < c.refillPerSecond)
    (checks : List Check) :
    Solvent (bs.after c checks) := by
  induction checks generalizing bs with
  | nil => exact solvent
  | cons q rest ih => exact ih (solvent.acquire refill q.key q.time).2

namespace Limiter

theorem isSome_of_mem_answersTo (all : l.AnswersAll bs checks)
    {answer : Option (Except Error Admission)} (mem : answer ∈ l.answersTo key bs checks) :
    answer.isSome := by
  induction checks generalizing bs with
  | nil => cases mem
  | cons q rest ih =>
      simp only [answersTo] at mem
      split at mem
      · rcases List.mem_cons.mp mem with rfl | later
        · exact all.1
        · exact ih all.2 later
      · exact ih all.2 mem

end Limiter

/-- What an answer says about the checks to come, in a table that was used at no later time. After
an allowed check, those of the same key at the same time are allowed as often as there were tokens
remaining, and no further one is; all of them are answered if no time to wait is too long for a
duration. After a refused one nothing remains. A nanosecond beyond the time to wait a check is
allowed, and until a nanosecond before it one is refused, as long as the bucket cannot be idle for
anybody. -/
theorem answers_predict {capacity : ℕ} {refillPerMinute : ℚ} {idleTtl : Duration}
    (accepted : Config.perMinute capacity refillPerMinute idleTtl = .ok l.config)
    (fits : capacity < Width.limit32) (lasting : 0 < idleTtl.nanos) {earlier : List Check}
    (past : ∀ q ∈ earlier, q.time ≤ t) {a : Admission}
    (answered : (l.serve (.after l.config .empty earlier) ⟨key, t⟩).1 = some (.ok a)) :
    let bs := (l.serve (.after l.config .empty earlier) ⟨key, t⟩).2
    (a.allowed = true → ∀ more : List Check, (∀ q ∈ more, q.time = t) → ∀ i answer,
      (l.answersTo key bs more)[i]? = some answer →
        Limiter.allows answer = decide (i < a.remaining) ∧
        (1 / l.config.refillPerSecond < longestWait → answer.isSome)) ∧
    (a.allowed = false → a.remaining = 0 ∧
      ∀ (others : List Check) (u : Instant), (∀ q ∈ others, q.key ≠ key) →
        ((a.retryAfter.nanos : ℤ) + 1 ≤ u.since t →
          Limiter.allows (l.serve (bs.after l.config others) ⟨key, u⟩).1 = true) ∧
        (u.since t < (a.retryAfter.nanos : ℤ) - 1 → u.since t < idleTtl.nanos →
          (∀ q ∈ others, q.time.since t < idleTtl.nanos) →
          ∃ a', (l.serve (bs.after l.config others) ⟨key, u⟩).1 = some (.ok a') ∧
            a'.allowed = false)) := by
  obtain ⟨someToken, refill⟩ := Config.of_perMinute accepted
  obtain ⟨rfl, rfl⟩ : l.config.capacity = capacity ∧ l.config.idleTtl = idleTtl := by
    obtain ⟨_, _, made⟩ := Config.perMinute_eq_ok.mp accepted
    rw [made]
    exact ⟨rfl, rfl⟩
  let start : Buckets ℚ := .after l.config .empty earlier
  let grant := (start.acquire l.config key t).1
  have once : (Buckets.keys (start.acquire l.config key t).2.entries).Nodup :=
    Buckets.nodup_keys_acquire (Buckets.nodup_keys_after l.config earlier List.nodup_nil)
  have found : (start.acquire l.config key t).2.find? key = some ⟨grant.tokens, t⟩ :=
    Buckets.find?_acquire_self (Buckets.filledAt_empty.after past) key
  have room : grant.tokens ≤ l.config.capacity := Buckets.tokens_acquire_le
  have small : grant.tokens < 4294967296 := by
    have whole : (l.config.capacity : ℚ) < 4294967296 := by exact_mod_cast fits
    exact room.trans_lt whole
  obtain ⟨allowed, remaining, wait⟩ := Limiter.of_serve answered
  intro bs
  refine ⟨?_, ?_⟩
  · intro _ more atOnce i answer given
    refine ⟨?_, fun short => ?_⟩
    · rw [Limiter.allows_answersTo lasting once found room atOnce given,
        decide_eq_decide, remaining]
      exact (lt_whole_iff small).symm
    · have solvent := (solvent_empty.after refill earlier).acquire refill key t
      have all := answersAll_of_short refill short solvent.2 more
      exact Limiter.isSome_of_mem_answersTo all (List.mem_of_getElem? given)
  · intro refused
    have less : grant.tokens < 1 := Buckets.tokens_lt_one_of_refused (allowed ▸ refused)
    refine ⟨?_, fun others u notOf => ⟨fun waited => ?_, fun early busy kept => ?_⟩⟩
    · rw [remaining]
      by_contra some
      have whole := (lt_whole_iff small).mp (Nat.pos_of_ne_zero some)
      rw [Nat.cast_zero] at whole
      linarith
    · exact Limiter.allows_after_wait someToken refill once notOf found less
        (wait (allowed ▸ refused))
        waited
    · exact Limiter.refuses_before_wait refill once notOf found less room
        (wait (allowed ▸ refused)) early
        busy kept

namespace Sample

/-- A single token, one more every two seconds, and a bucket that starts anew after a second and a
half. -/
def scarce : Limiter ℚ := ⟨⟨1, 30 / Amount.ofNat 60, .ofMillis 1500⟩, false⟩

def refusal : Admission := ⟨false, 0, .ofSeconds 2⟩

def taken (t : Instant) : Buckets ℚ := .after scarce.config .empty [⟨"ann", t⟩]

def bystanders (t sweep : Instant) : List Check :=
  List.replicate (Buckets.sweepInterval - 3) ⟨"bob", t⟩ ++ [⟨"bob", sweep⟩]

theorem key_of_mem_bystanders {sweep : Instant} {q : Check} (mem : q ∈ bystanders t sweep) :
    q.key ≠ "ann" := by
  rcases List.mem_append.mp mem with early | last
  · rw [List.eq_of_mem_replicate early]
    exact (by decide : "bob" ≠ "ann")
  · rw [List.mem_singleton.mp last]
    exact (by decide : "bob" ≠ "ann")

theorem ordered_bystanders {sweep : Instant} (first : t ≤ sweep) (second : sweep ≤ u) :
    (t :: (bystanders t sweep).map Check.time ++ [u]).Pairwise (· ≤ ·) := by
  have both := Instant.le_trans first second
  have same := Instant.le_refl t
  unfold bystanders
  generalize Buckets.sweepInterval - 3 = many
  simp only [List.map_append, List.map_replicate, List.map_cons, List.map_nil, List.cons_append,
    List.append_assoc, List.nil_append, List.pairwise_cons, List.pairwise_append,
    List.pairwise_replicate, List.mem_append, List.mem_cons, List.mem_replicate, List.not_mem_nil,
    or_false]
  refine ⟨?_, .inr same, ⟨?_, ?_, .nil⟩, ?_⟩
  · rintro _ (⟨_, rfl⟩ | rfl | rfl) <;> assumption
  · rintro _ rfl
    exact second
  · exact fun _ mem => nomatch mem
  · rintro _ ⟨_, rfl⟩ _ (rfl | rfl) <;> assumption

theorem find?_after_bystanders {sweep : Instant} (once : (Buckets.keys bs.entries).Nodup)
    (two : bs.acquires = 2) (found : bs.find? "ann" = some b) (idle : c.isIdle b sweep = true) :
    (bs.after c (bystanders t sweep)).find? "ann" = none := by
  let many := List.replicate (Buckets.sweepInterval - 3) (⟨"bob", t⟩ : Check)
  have notOf : ∀ q ∈ many, q.key ≠ "ann" := fun q mem =>
    key_of_mem_bystanders (List.mem_append_left _ mem : q ∈ bystanders t sweep)
  have length : many.length = Buckets.sweepInterval - 3 := List.length_replicate
  have kept : (bs.after c many).find? "ann" = some b := by
    rw [Buckets.find?_after_others c notOf (by rw [two, length]; decide), found]
  have count : (bs.after c many).acquires = Buckets.sweepInterval - 1 := by
    rw [Buckets.acquires_after, two, length]
    rfl
  have split : bs.after c (bystanders t sweep) = ((bs.after c many).acquire c "bob" sweep).2 :=
    Buckets.after_append c bs many [⟨"bob", sweep⟩]
  rw [split]
  exact Buckets.find?_acquire_of_sweep (Buckets.nodup_keys_after c many once)
    (by rw [count]; decide)
    (by decide : "ann" ≠ "bob") kept idle

end Sample

/-- Told to wait for two seconds, a client is refused after one second and admitted after three. -/
theorem answers_predict_of_scarce :
    Config.perMinute 1 (30 : ℚ) (.ofMillis 1500) = .ok Sample.scarce.config ∧
    (Sample.scarce.serve (Sample.taken (.ofSecond 0)) ⟨"ann", .ofSecond 0⟩).1 =
      some (.ok Sample.refusal) ∧
    let bs := (Sample.scarce.serve (Sample.taken (.ofSecond 0)) ⟨"ann", .ofSecond 0⟩).2
    (∃ a, (Sample.scarce.serve (bs.after Sample.scarce.config [⟨"bob", .ofSecond 1⟩])
      ⟨"ann", .ofSecond 1⟩).1 = some (.ok a) ∧ a.allowed = false) ∧
    Limiter.allows (Sample.scarce.serve (bs.after Sample.scarce.config [⟨"bob", .ofSecond 1⟩])
      ⟨"ann", .ofSecond 3⟩).1 = true := by
  have accepted : Config.perMinute 1 (30 : ℚ) (.ofMillis 1500) = .ok Sample.scarce.config := rfl
  have answered : (Sample.scarce.serve (Sample.taken (.ofSecond 0)) ⟨"ann", .ofSecond 0⟩).1 =
      some (.ok Sample.refusal) := by decide +kernel
  obtain ⟨_, refused⟩ := answers_predict accepted (by decide) (by decide) (by decide) answered
  have notOf : ∀ q ∈ [(⟨"bob", .ofSecond 1⟩ : Check)], q.key ≠ "ann" := by decide
  have later := (refused rfl).2 [⟨"bob", .ofSecond 1⟩]
  exact ⟨accepted, answered, (later (.ofSecond 1) notOf).2 (by decide) (by decide) (by decide),
    (later (.ofSecond 3) notOf).1 (by decide)⟩

/-- Over a leap second a client is admitted early. It is told to wait for two seconds and comes back
after one, as the difference of the two readings has it. In between, a sweep drops its bucket when
nearly two seconds have passed by the reading within the leap second. -/
theorem admitted_early_over_leap_second :
    let t := Sample.lastOfYear
    let u := Sample.newYear
    let others := Sample.bystanders t Sample.withinLeapSecond
    let bs := (Sample.scarce.serve (Sample.taken t) ⟨"ann", t⟩).2
    (Sample.scarce.serve (Sample.taken t) ⟨"ann", t⟩).1 = some (.ok Sample.refusal) ∧
    (t :: others.map Check.time ++ [u]).Pairwise (· ≤ ·) ∧ (∀ q ∈ others, q.key ≠ "ann") ∧
    u.since t < (Sample.refusal.retryAfter.nanos : ℤ) - 1 ∧
    u.since t < Sample.scarce.config.idleTtl.nanos ∧
    Limiter.allows (Sample.scarce.serve (bs.after Sample.scarce.config others) ⟨"ann", u⟩).1 =
      true := by
  intro t u others bs
  have once : (Buckets.keys bs.entries).Nodup :=
    Buckets.nodup_keys_acquire (Buckets.nodup_keys_after _ _ List.nodup_nil)
  have found : bs.find? "ann" = some ⟨0, t⟩ := by
    have filled : Buckets.FilledAt (· ≤ t) (Sample.taken t) :=
      Buckets.filledAt_empty.after (by simp [Instant.le_refl])
    have spent : ((Sample.taken t).acquire Sample.scarce.config "ann" t).1.tokens =
        0 := by decide +kernel
    exact spent ▸ Buckets.find?_acquire_self filled "ann"
  have idle : Sample.scarce.config.isIdle ⟨0, t⟩ Sample.withinLeapSecond = true := by decide
  have dropped : (bs.after Sample.scarce.config others).find? "ann" = none :=
    Sample.find?_after_bystanders once rfl found idle
  have gone : ((bs.after Sample.scarce.config others).swept Sample.scarce.config u).lookup "ann" =
      none := by
    rcases Buckets.lookup_swept Sample.scarce.config u "ann"
      (Buckets.nodup_keys_after Sample.scarce.config others once) with same | ⟨gone, _⟩
    · exact same.trans dropped
    · exact gone
  refine ⟨by decide +kernel, Sample.ordered_bystanders (by decide) (by decide),
    fun q mem => Sample.key_of_mem_bystanders mem, by decide, by decide, ?_⟩
  rw [Limiter.allows_serve]
  refine Buckets.acquired_iff.mpr ?_
  rw [gone]
  decide +kernel

end RateLimit
end Courier
