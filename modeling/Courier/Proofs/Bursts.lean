import Courier.Proofs.FloatingAmounts
import Courier.Proofs.Predictions

/-!
Bursts: how many checks of a key are allowed at one and the same reading of the clock, in floating
point. Once a bucket has been filled up to a reading, nothing flows into it at that reading,
whatever the rounding does, and it is not idle, so every admission takes one of no more tokens than
the capacity. A bucket that nobody may leave alone for any time at all is always idle, and full
again for every check.
-/
namespace Courier

theorem Instant.since_nonpos {t u : Instant} (plain : t.nano < 1000000000) (before : t ≤ u) :
    t.since u ≤ 0 := by
  have order : t.key ≤ u.key := before
  have short := u.nano_lt
  unfold key at order
  unfold since secondOfDay
  dsimp only
  split
  · omega
  · split <;> omega

theorem Instant.elapsedSince_of_nonpos {t u : Instant} (past : t.since u ≤ 0) :
    t.elapsedSince u = .zero := by
  refine Duration.ext_nanos ?_
  rw [elapsedSince_nanos, Int.toNat_of_nonpos past]
  rfl

namespace RateLimit

namespace Buckets

variable {α : Type} [Amount α] {c : Config α} {bs : Buckets α} {t : Instant}
  {times : Instant → Prop}

/-- What requests can leave behind that come at such times, each under a configuration of its
own. -/
inductive Reached (times : Instant → Prop) : Buckets α → Prop
  | empty : Reached times .empty
  | acquire {bs : Buckets α} {now : Instant} (reached : Reached times bs)
      (c : Config α) (key : String)
      (shown : times now) : Reached times (bs.acquire c key now).2

theorem Reached.once (reached : Reached times bs) : (keys bs.entries).Nodup := by
  induction reached with
  | empty => exact List.nodup_nil
  | acquire _ c key shown ih => exact nodup_keys_acquire ih

theorem Reached.filledAt (reached : Reached times bs) : FilledAt times bs := by
  induction reached with
  | empty => exact filledAt_empty
  | acquire _ c key shown ih => exact ih.acquire c key shown

/-- The sweep of a request is not noticed by the request itself. -/
theorem bucketAt_swept_same (once : (keys bs.entries).Nodup) (key : String) :
    bucketAt c t ((bs.swept c t).lookup key) = bucketAt c t (bs.find? key) := by
  rcases lookup_swept c t key once with same | ⟨gone, b, found, idle⟩
  · rw [same]
  · rw [gone, found, bucketAt_of_isIdle idle]

theorem since_bucketAt_nonpos {o : Option (Bucket α)}
    (later : ∀ b, o = some b → t < b.refilledAt → t.since b.refilledAt ≤ 0) :
    t.since (bucketAt c t o).refilledAt ≤ 0 := by
  rcases refilledAt_bucketAt c t o with same | ⟨b, found, after, same⟩
  · rw [same, Instant.since_self]
  · rw [same]
    exact later b found after

end Buckets

/-- What is known of an accepted configuration with an idle time. -/
structure Config.Bounding (c : Config Float) : Prop where
  small : c.capacity < 2 ^ 53
  refill : ∃ perMinute : Float,
    perMinute.toModel.unpack.isFinite = true ∧ c.refillPerSecond = perMinute / Float.ofNat 60
  lasting : 0 < c.idleTtl.nanos

variable {c : Config Float} {l : Limiter Float} {bs : Buckets Float} {key : String} {n : ℕ}
  {t : Instant} {burst : List Check}

namespace Config

theorem Bounding.of_perMinute {capacity : ℕ} {refillPerMinute : Float} {idleTtl : Duration}
    (accepted : perMinute capacity refillPerMinute idleTtl = .ok c)
    (fits : capacity < Width.limit32) (lasting : 0 < idleTtl.nanos) : c.Bounding := by
  obtain ⟨_, usable, rfl⟩ := perMinute_eq_ok.mp accepted
  have finite : refillPerMinute.toModel.unpack.isFinite = true := (Bool.and_eq_true_iff.mp usable).1
  exact ⟨Nat.lt_trans fits (by decide), ⟨refillPerMinute, finite, rfl⟩, lasting⟩

theorem refill_le_full (bounding : c.Bounding) (tokens : Float) (elapsed : Duration) :
    c.refill tokens elapsed ≤ Float.ofNat c.capacity := by
  unfold refill smaller
  split
  · assumption
  · exact Floating.ofNat_le_self bounding.small

theorem refill_zero_le (bounding : c.Bounding) {tokens : Float} (few : n ≤ c.capacity)
    (most : tokens ≤ Float.ofNat n) : c.refill tokens .zero ≤ Float.ofNat n := by
  obtain ⟨perMinute, finite, rate⟩ := bounding.refill
  have small : n < 2 ^ 53 := Nat.lt_of_le_of_lt few bounding.small
  have zero : (floatSeconds .zero).toModel.unpack = .zero .positive := rfl
  have filled := Floating.add_zero_mul_le small most zero finite
  have room := Floating.le_ofNat_mono bounding.small filled few
  rw [← rate] at filled room
  have same : c.refill tokens .zero = tokens + floatSeconds .zero * c.refillPerSecond := if_pos room
  rw [same]
  exact filled

end Config

namespace Buckets

theorem bucketAt_le_full (bounding : c.Bounding) (now : Instant) (o : Option (Bucket Float)) :
    (bucketAt c now o).tokens ≤ Float.ofNat c.capacity := by
  cases o with
  | none => exact c.refill_le_full bounding _ _
  | some b =>
      by_cases idle : c.isIdle b now = true
      · simp only [bucketAt, if_pos idle]
        exact c.refill_le_full bounding _ _
      · simp only [bucketAt, if_neg idle]
        exact c.refill_le_full bounding _ _

theorem bucketAt_still_le (bounding : c.Bounding) {b : Bucket Float} (few : n ≤ c.capacity)
    (still : t.since b.refilledAt ≤ 0) (most : b.tokens ≤ Float.ofNat n) :
    (bucketAt c t (some b)).tokens ≤ Float.ofNat n := by
  have busy : ¬c.isIdle b t = true := by
    have lasting := bounding.lasting
    rw [Config.isIdle_iff]
    omega
  simp only [bucketAt, if_neg busy, Instant.elapsedSince_of_nonpos still]
  exact c.refill_zero_le bounding few most

theorem take_le (small : n < 2 ^ 53) {b : Bucket Float} (most : b.tokens ≤ Float.ofNat n) :
    ∃ left, left + (if (take b).acquired then 1 else 0) = n ∧
      (take b).tokens ≤ Float.ofNat left := by
  by_cases token : Float.ofNat 1 ≤ b.tokens
  · have taken : take b = ⟨true, b.tokens - Float.ofNat 1⟩ := if_pos token
    rw [taken]
    cases n with
    | zero => exact absurd token (Floating.not_one_le_of_le_zero most)
    | succ left => exact ⟨left, rfl, Floating.sub_one_le small most token⟩
  · have taken : take b = ⟨false, b.tokens⟩ := if_neg token
    rw [taken]
    exact ⟨n, rfl, most⟩

/-- At that time, a key has no more than `n` tokens to spend. -/
structure Spends (c : Config Float) (t : Instant) (key : String) (n : ℕ) (bs : Buckets Float) :
    Prop where
  once : (keys bs.entries).Nodup
  filled : FilledAt (fun u => t < u → t.since u ≤ 0) bs
  few : n ≤ c.capacity
  most : (bucketAt c t (bs.find? key)).tokens ≤ Float.ofNat n

theorem spends_of_reached (bounding : c.Bounding)
    (reached : Reached (fun u => t < u → t.since u ≤ 0) bs) (key : String) :
    Spends c t key c.capacity bs :=
  ⟨reached.once, reached.filledAt, Nat.le_refl _, bucketAt_le_full bounding _ _⟩

theorem Spends.acquire (bounding : c.Bounding) (spends : Spends c t key n bs) (asked : String) :
    ∃ left, left + (if asked = key ∧ (bs.acquire c asked t).1.acquired then 1 else 0) = n ∧
      Spends c t key left (bs.acquire c asked t).2 := by
  have once : (keys (bs.acquire c asked t).2.entries).Nodup := nodup_keys_acquire spends.once
  have filled := spends.filled.acquire c asked fun after => absurd after (Int.lt_irrefl _)
  by_cases own : asked = key
  · subst own
    let b := bucketAt c t ((bs.swept c t).lookup asked)
    have most : b.tokens ≤ Float.ofNat n := by
      show (bucketAt c t ((bs.swept c t).lookup asked)).tokens ≤ _
      rw [bucketAt_swept_same spends.once]
      exact spends.most
    have still : t.since b.refilledAt ≤ 0 := since_bucketAt_nonpos fun old found =>
      spends.filled _ (mem_of_mem_swept (mem_of_lookup found))
    obtain ⟨left, paid, rest⟩ := take_le (Nat.lt_of_le_of_lt spends.few bounding.small) most
    have few : left ≤ c.capacity := by
      have := spends.few
      omega
    have found : (bs.acquire c asked t).2.find? asked = some ⟨(take b).tokens, b.refilledAt⟩ :=
      lookup_putEntry_self
    refine ⟨left, ?_, once, filled, few, ?_⟩
    · simp only [true_and]
      exact paid
    · rw [found]
      exact bucketAt_still_le bounding few still rest
  · refine ⟨n, by simp [own], once, filled, spends.few, ?_⟩
    rw [find?_acquire_of_ne own, bucketAt_swept_same spends.once]
    exact spends.most

end Buckets

theorem countP_admitted_le (bounding : l.config.Bounding)
    (spends : Buckets.Spends l.config t key n bs) (atOnce : ∀ q ∈ burst, q.time = t) :
    (l.admitted bs burst).countP (fun q => decide (q.key = key)) ≤ n := by
  induction burst generalizing bs n with
  | nil => exact Nat.zero_le n
  | cons q rest ih =>
      obtain ⟨rfl, atOnce⟩ := List.forall_mem_cons.mp atOnce
      obtain ⟨left, paid, spends⟩ := spends.acquire bounding q.key
      have later := ih spends atOnce
      rw [countP_admitted_cons]
      simp only [decide_eq_true_eq]
      omega

/-- At one reading of the clock no more checks of a key are allowed than its bucket has room for, in
whatever state the buckets are, if the idle time is not zero and if no time has passed at that
reading since a later one at which a bucket was filled. -/
theorem bursts_bounded {capacity : ℕ} {refillPerMinute : Float} {idleTtl : Duration}
    (accepted : Config.perMinute capacity refillPerMinute idleTtl = .ok l.config)
    (fits : capacity < Width.limit32) (lasting : 0 < idleTtl.nanos)
    (reached : Buckets.Reached (fun u => t < u → t.since u ≤ 0) bs)
    (atOnce : ∀ q ∈ burst, q.time = t) (key : String) :
    (l.admitted bs burst).countP (fun q => decide (q.key = key)) ≤ capacity := by
  have bounding := Config.Bounding.of_perMinute accepted fits lasting
  obtain ⟨_, _, same⟩ := Config.perMinute_eq_ok.mp accepted
  have room : l.config.capacity = capacity := by rw [same]
  rw [← room]
  exact countP_admitted_le bounding (Buckets.spends_of_reached bounding reached key) atOnce

namespace Sample

def paired : Limiter Float := ⟨⟨2, 60 / Amount.ofNat 60, .ofMillis 60000⟩, true⟩

def forgetful : Limiter Float := ⟨⟨1, 60 / Amount.ofNat 60, .zero⟩, true⟩

def brisk : Limiter Float := ⟨⟨1, 600 / Amount.ofNat 60, .ofMillis 60000⟩, true⟩

end Sample

/-- Of three checks that come when the clock has been set back, the two are allowed for which there
are tokens. -/
theorem bursts_bounded_when_set_back :
    let t := Instant.ofSecond 0
    let bs := (Buckets.empty.acquire Sample.paired.config "bob" (.ofSecond 30)).2
    let burst := List.replicate 3 (⟨"ann", t⟩ : Check)
    Config.perMinute 2 60 (.ofMillis 60000) = .ok Sample.paired.config ∧
      Buckets.Reached (fun u => t < u → t.since u ≤ 0) bs ∧
      (Sample.paired.admitted bs burst).length = 2 ∧
      (Sample.paired.admitted bs burst).countP (fun q => decide (q.key = "ann")) ≤ 2 := by
  intro t bs burst
  have accepted : Config.perMinute 2 60 (.ofMillis 60000) = .ok Sample.paired.config :=
    Config.perMinute_eq_ok.mpr ⟨by decide, by decide +kernel, rfl⟩
  have reached : Buckets.Reached (fun u => t < u → t.since u ≤ 0) bs :=
    .acquire .empty Sample.paired.config "bob" fun before =>
      Instant.since_nonpos (by decide) (Int.le_of_lt before)
  exact ⟨accepted, reached, by decide +kernel,
    bursts_bounded accepted (by decide) (by decide) reached (by decide) "ann"⟩

/-- More checks are allowed at one reading than there are tokens if the idle time is zero, as every
check finds the bucket idle. And within a leap second time has passed since a later reading, as the
difference of the two has it, and flows in anew for every check. -/
theorem bursts_exceed_capacity :
    let ofAnn := fun q : Check => decide (q.key = "ann")
    let first := Instant.ofSecond 0
    let leap := Sample.withinLeapSecond
    let bs := (Buckets.empty.acquire Sample.brisk.config "ann" Sample.newYear).2
    (Config.perMinute 1 60 .zero = .ok Sample.forgetful.config ∧
      (Sample.forgetful.admitted .empty [⟨"ann", first⟩, ⟨"ann", first⟩]).countP ofAnn = 2) ∧
    Config.perMinute 1 600 (.ofMillis 60000) = .ok Sample.brisk.config ∧ leap < Sample.newYear ∧
      (Sample.brisk.admitted bs [⟨"ann", leap⟩, ⟨"ann", leap⟩]).countP ofAnn = 2 :=
  ⟨⟨Config.perMinute_eq_ok.mpr ⟨by decide, by decide +kernel, rfl⟩, by decide +kernel⟩,
    Config.perMinute_eq_ok.mpr ⟨by decide, by decide +kernel, rfl⟩, by decide, by decide +kernel⟩

end RateLimit
end Courier
