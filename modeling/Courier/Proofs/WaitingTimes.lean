import Courier.Proofs.RateBound

namespace Courier

/-- A quotient is rounded to less than an even number exactly if it lies more than half a unit
below. -/
theorem Decimal.roundQuotient_lt_iff {num den limit : Nat} (even : limit % 2 = 0)
    (positive : 0 < den) :
    roundQuotient num den < limit ↔ 2 * num + den < 2 * (den * limit) := by
  have split_num := Nat.div_add_mod num den
  have small := Nat.mod_lt num positive
  unfold roundQuotient
  generalize num / den = q at *
  generalize num % den = r at *
  simp only
  rcases Nat.lt_or_ge (q + 1) limit with below | above
  · have room : den * (q + 2) ≤ den * limit := Nat.mul_le_mul_left den below
    have step : den * (q + 2) = den * q + 2 * den := by ring
    split <;> [skip; split] <;> omega
  · rcases Nat.lt_or_ge q limit with last | beyond
    · obtain rfl : limit = q + 1 := by omega
      have step : den * (q + 1) = den * q + den := Nat.mul_succ den q
      split <;> [skip; split] <;> omega
    · have exceeded : den * limit ≤ den * q := Nat.mul_le_mul_left den beyond
      split <;> [skip; split] <;> omega

namespace RateLimit

/-- Rounded to nanoseconds, this many seconds and all below make a duration. -/
def longestWait : ℚ := 18446744073709551616 - 1 / 2000000000

theorem num_eq_of_nonneg {x : ℚ} (nonneg : 0 ≤ x) : (x.num.toNat : ℚ) = x * x.den := by
  have whole : (x.num.toNat : ℤ) = x.num := Int.toNat_of_nonneg (Rat.num_nonneg.mpr nonneg)
  rw [Rat.mul_den_eq_num]
  exact_mod_cast whole

/-- Seconds make a duration if they are not negative, and not too many. -/
theorem toDuration?_isSome_iff {x : ℚ} (nonneg : 0 ≤ x) :
    (Amount.toDuration? x).isSome ↔ x < longestWait := by
  have positive : (0 : ℚ) < x.den := Nat.cast_pos.mpr x.den_pos
  show (durationOfRat? x).isSome ↔ _
  unfold durationOfRat? Duration.ofNanos?
  rw [if_neg (not_lt.mpr nonneg)]
  simp only [Option.isSome_dite]
  rw [Decimal.roundQuotient_lt_iff (by decide) x.den_pos, ← Nat.cast_lt (α := ℚ)]
  push_cast
  rw [num_eq_of_nonneg nonneg]
  have limit : (Duration.limit : ℚ) = 18446744073709551616000000000 := by norm_num [Duration.limit]
  rw [limit]
  unfold longestWait
  constructor
  · intro less
    have scaled : x.den * (2000000000 * x + 1) <
        x.den * 36893488147419103232000000000 := by linarith
    have := lt_of_mul_lt_mul_left scaled positive.le
    linarith
  · intro less
    have scaled : x.den * (2000000000 * x + 1) < x.den * 36893488147419103232000000000 := by
      apply mul_lt_mul_of_pos_left _ positive
      linarith
    linarith

namespace Limiter

/-- All checks of a sequence are answered, from these buckets on. -/
def AnswersAll {α : Type} [Amount α] (l : Limiter α) : Buckets α → List Check → Prop
  | _, [] => True
  | bs, q :: rest => (l.serve bs q).1.isSome ∧ l.AnswersAll (l.serve bs q).2 rest

end Limiter

variable {c : Config ℚ} {l : Limiter ℚ} {bs : Buckets ℚ} {key : String} {now t : Instant}

/-- A grant is answered unless it is a refusal with too long a waiting time. -/
theorem serve_isSome_iff {q : Check} : (l.serve bs q).1.isSome ↔
    ((bs.acquire l.config q.key q.time).1.acquired = true ∨
      (l.config.untilToken? (bs.acquire l.config q.key q.time).1.tokens).isSome) := by
  simp only [Limiter.serve, Limiter.admission?, Admission.ofGrant?, Option.isSome_map]
  cases (bs.acquire l.config q.key q.time).1.acquired <;> simp

/-- No bucket is in debt. -/
def Solvent (bs : Buckets ℚ) : Prop := ∀ e ∈ bs.entries, 0 ≤ e.2.tokens

theorem solvent_empty : Solvent .empty := List.forall_mem_nil _

theorem bucketAt_nonneg (refill : 0 < c.refillPerSecond) {o : Option (Bucket ℚ)}
    (solvent : ∀ b, o = some b → 0 ≤ b.tokens) : 0 ≤ (Buckets.bucketAt c now o).tokens := by
  have capacity : (0 : ℚ) ≤ c.capacity := Nat.cast_nonneg _
  have fresh : 0 ≤ c.refill c.full .zero := (Config.refill_full c).symm ▸ capacity
  cases o with
  | none => exact fresh
  | some b =>
    have before := solvent b rfl
    have gained : 0 ≤ ((now.elapsedSince b.refilledAt).nanos : ℚ) / 1000000000 *
        c.refillPerSecond :=
      mul_nonneg (div_nonneg (Nat.cast_nonneg _) (by norm_num)) refill.le
    by_cases idle : c.isIdle b now = true
    · simpa only [Buckets.bucketAt, if_pos idle] using fresh
    · simp only [Buckets.bucketAt, if_neg idle, Config.refill_exact]
      exact le_min (add_nonneg before gained) capacity

theorem Solvent.acquire (solvent : Solvent bs) (refill : 0 < c.refillPerSecond) (key : String)
    (now : Instant) :
    0 ≤ (bs.acquire c key now).1.tokens ∧ Solvent (bs.acquire c key now).2 := by
  have filled : 0 ≤ (Buckets.bucketAt c now ((bs.swept c now).lookup key)).tokens :=
    bucketAt_nonneg refill fun b found =>
      solvent _ (Buckets.mem_of_mem_swept (Buckets.mem_of_lookup found))
  have left := (take_spec _ filled).1
  refine ⟨left, fun e mem => ?_⟩
  rcases Buckets.mem_putEntry mem with rfl | old
  · exact left
  · exact solvent e (Buckets.mem_of_mem_swept old)

theorem untilToken?_isSome (refill : 0 < c.refillPerSecond)
    (short : 1 / c.refillPerSecond < longestWait) {tokens : ℚ} (nonneg : 0 ≤ tokens) :
    (c.untilToken? tokens).isSome := by
  have one : (Amount.ofNat 1 : ℚ) = 1 := Nat.cast_one
  unfold Config.untilToken?
  rw [one]
  split
  · rfl
  · rename_i less
    have missing : 0 ≤ 1 - tokens := by linarith [not_le.mp less]
    rw [toDuration?_isSome_iff (div_nonneg missing refill.le)]
    have most : (1 - tokens) / c.refillPerSecond ≤ 1 / c.refillPerSecond := by
      gcongr
      linarith
    exact most.trans_lt short

theorem answersAll_of_short (refill : 0 < l.config.refillPerSecond)
    (short : 1 / l.config.refillPerSecond < longestWait) (solvent : Solvent bs)
    (checks : List Check) :
    l.AnswersAll bs checks := by
  induction checks generalizing bs with
  | nil => trivial
  | cons q rest ih =>
    obtain ⟨nonneg, after⟩ := solvent.acquire refill q.key q.time
    exact ⟨serve_isSome_iff.mpr (.inr (untilToken?_isSome refill short nonneg)), ih after⟩

/-- A bucket that was filled later, as it seems, is left as it is. -/
theorem acquire_earlier (once : (Buckets.keys bs.entries).Nodup) {b : Bucket ℚ}
    (found : bs.find? key = some b) (earlier : now.since b.refilledAt < 0)
    (order : ¬b.refilledAt ≤ now) (fits : b.tokens ≤ c.capacity) :
    (bs.acquire c key now).1 = Buckets.take b ∧
      (Buckets.keys (bs.acquire c key now).2.entries).Nodup ∧
      (bs.acquire c key now).2.find? key = some ⟨(Buckets.take b).tokens, b.refilledAt⟩ := by
  have busy : c.isIdle b now = false := by
    simp only [Config.isIdle, Bool.and_eq_false_iff, decide_eq_false_iff_not]
    exact .inl (not_le.mpr earlier)
  have kept : (bs.swept c now).lookup key = some b := by
    rcases Buckets.lookup_swept c now key once with same | ⟨_, b', same, idle⟩
    · rw [same, found]
    · cases found.symm.trans same
      cases busy.symm.trans idle
  have nothing : now.elapsedSince b.refilledAt = .zero := by
    unfold Instant.elapsedSince
    rw [Int.toNat_of_nonpos earlier.le]
    rfl
  have filled : Buckets.bucketAt c now (some b) = b := by
    simp only [Buckets.bucketAt, busy, nothing, if_neg order, Config.refill_exact]
    simp [Duration.zero, min_eq_left fits]
  refine ⟨?_, Buckets.nodup_keys_putEntry (Buckets.nodup_keys_swept once), ?_⟩
  · simp only [Buckets.acquire, kept, filled]
  · simp only [Buckets.acquire, Buckets.find?, Buckets.lookup_putEntry_self, kept, filled]

theorem take_whole (tokens : ℕ) (filled : Instant) :
    Buckets.take (⟨((tokens + 1 : ℕ) : ℚ), filled⟩ : Bucket ℚ) = ⟨true, tokens⟩ := by
  have one : (Amount.ofNat 1 : ℚ) = 1 := Nat.cast_one
  simp [Buckets.take, one]

/-- A bucket of whole tokens that nothing fills is emptied, and the check after that waits for a
whole token. -/
theorem short_of_answered {filled : Instant} (refill : 0 < l.config.refillPerSecond)
    (earlier : now.since filled < 0) (order : ¬filled ≤ now)
    (once : (Buckets.keys bs.entries).Nodup) {tokens : ℕ}
    (found : bs.find? key = some ⟨tokens, filled⟩) (fits : tokens ≤ l.config.capacity)
    (answered : l.AnswersAll bs (List.replicate (tokens + 1) ⟨key, now⟩)) :
    1 / l.config.refillPerSecond < longestWait := by
  have one : (Amount.ofNat 1 : ℚ) = 1 := Nat.cast_one
  induction tokens generalizing bs with
  | zero =>
    obtain ⟨granted, _, _⟩ := acquire_earlier once found earlier order (Nat.cast_le.mpr fits)
    have refused : Buckets.take (⟨((0 : ℕ) : ℚ), filled⟩ : Bucket ℚ) = ⟨false, 0⟩ := by
      simp [Buckets.take, one]
    rcases serve_isSome_iff.mp answered.1 with token | wait
    · rw [granted, refused] at token
      cases token
    · rw [granted, refused] at wait
      unfold Config.untilToken? at wait
      rw [one, if_neg (by norm_num), sub_zero] at wait
      exact (toDuration?_isSome_iff (div_nonneg zero_le_one refill.le)).mp wait
  | succ tokens ih =>
    obtain ⟨_, once, after⟩ := acquire_earlier once found earlier order (Nat.cast_le.mpr fits)
    rw [take_whole] at after
    exact ih once after (by omega) answered.2

theorem find?_acquire_empty {tokens : ℕ} (capacity : c.capacity = tokens + 1) (key : String)
    (now : Instant) :
    (Buckets.empty.acquire c key now).2.find? key = some ⟨tokens, now⟩ := by
  have full : c.refill c.full .zero = ((tokens + 1 : ℕ) : ℚ) := by
    rw [Config.refill_full, capacity]
  have missing : (Buckets.empty.swept c now).lookup key = none := rfl
  simp only [Buckets.acquire, Buckets.find?, Buckets.lookup_putEntry_self, missing,
    Buckets.bucketAt, full, take_whole]

theorem answersAll_iff (token : 0 < l.config.capacity) (refill : 0 < l.config.refillPerSecond)
    {may : Instant → Prop} {early late : Instant} (mayEarly : may early) (mayLate : may late)
    (order : early.since late < 0) (notLater : ¬late ≤ early) :
    (∀ checks : List Check, (∀ q ∈ checks, may q.time) → l.AnswersAll .empty checks) ↔
      1 / l.config.refillPerSecond < longestWait := by
  constructor
  · intro answered
    -- the bucket is filled at the later reading and drained at the earlier one, when nothing is
    -- added
    let checks : List Check :=
      ⟨"k", late⟩ :: List.replicate l.config.capacity ⟨"k", early⟩
    have all : ∀ q ∈ checks, may q.time := by
      intro q mem
      rcases List.mem_cons.mp mem with rfl | mem
      · exact mayLate
      · rw [List.eq_of_mem_replicate mem]
        exact mayEarly
    obtain ⟨tokens, capacity⟩ : ∃ tokens, l.config.capacity = tokens + 1 :=
      Nat.exists_eq_add_one.mpr token
    have rest := (answered checks all).2
    rw [capacity] at rest
    have once : (Buckets.keys (Buckets.empty.acquire l.config "k" late).2.entries).Nodup :=
      List.nodup_singleton _
    exact short_of_answered refill order notLater once (find?_acquire_empty capacity "k" late)
      (by omega) rest
  · intro short checks _
    exact answersAll_of_short refill short solvent_empty checks

end RateLimit
end Courier
