import Courier.Proofs.BucketEntries
import Courier.Proofs.ExactAmounts
import Courier.Proofs.LeapSeconds
import Courier.RateLimit.Limiter
import Mathlib.Tactic.Linarith

/-!
The rate that a client can reach. The worth of a key is what its bucket would hold if it were filled
up to now, and the capacity if there is no bucket. It grows no faster than the refill, never passes
the capacity, and every admission takes one token of it. Dropping an idle bucket or filling it again
does not change the worth, as an idle bucket is full anyway.
-/
namespace Courier.RateLimit

open Instant (Within secondsBetween)

/-- One check: for whom, and what the clock showed. -/
structure Check where
  key : String
  time : Instant
  deriving DecidableEq

namespace Limiter

variable {α : Type} [Amount α]

/-- What a check comes to with buckets in memory, which can always be reached. -/
def serve (l : Limiter α) (bs : Buckets α) (q : Check) :
    Option (Except Error Admission) × Buckets α :=
  let (grant, after) := bs.acquire l.config q.key q.time
  (l.admission? (.ok grant), after)

def allows : Option (Except Error Admission) → Bool
  | some (.ok a) => a.allowed
  | _ => false

/-- The checks of a sequence that are allowed, from these buckets on. -/
def admitted (l : Limiter α) : Buckets α → List Check → List Check
  | _, [] => []
  | bs, q :: rest =>
    let (answer, after) := l.serve bs q
    if allows answer then q :: l.admitted after rest else l.admitted after rest

/-- A check is allowed exactly if its bucket had a token. -/
theorem allows_serve (l : Limiter α) (bs : Buckets α) (q : Check) :
    allows (l.serve bs q).1 = (bs.acquire l.config q.key q.time).1.acquired := by
  simp only [serve, admission?, Admission.ofGrant?]
  cases acquired : (bs.acquire l.config q.key q.time).1.acquired with
  | true => rfl
  | false =>
    cases l.config.untilToken? (bs.acquire l.config q.key q.time).1.tokens <;> rfl

end Limiter

variable {c : Config ℚ} {leaps : Finset ℤ} {bs : Buckets ℚ} {key : String} {now t t0 t1 : Instant}

/-- The tokens of a bucket if it were filled up to `now`, and a full bucket if there is none. -/
def worth (c : Config ℚ) (leaps : Finset ℤ) (now : Instant) : Option (Bucket ℚ) → ℚ
  | none => c.capacity
  | some b => min (b.tokens + secondsBetween leaps b.refilledAt now * c.refillPerSecond) c.capacity

/-- What is true of every bucket at any time up to `now`. -/
structure Settled (leaps : Finset ℤ) (now : Instant) (b : Bucket ℚ) : Prop where
  tokens : 0 ≤ b.tokens
  within : b.refilledAt.Within leaps
  past : b.refilledAt ≤ now

/-- Buckets that requests left behind up to `now`. -/
structure Sound (leaps : Finset ℤ) (now : Instant) (bs : Buckets ℚ) : Prop where
  once : (Buckets.keys bs.entries).Nodup
  settled : ∀ e ∈ bs.entries, Settled leaps now e.2

/-- A bucket that is left alone for the idle time fills up in that time. -/
structure Filling (c : Config ℚ) : Prop where
  refill : 0 < c.refillPerSecond
  idle : (c.capacity : ℚ) ≤ c.idleSeconds * c.refillPerSecond

theorem worth_le_capacity (c : Config ℚ) (leaps : Finset ℤ) (now : Instant)
    (o : Option (Bucket ℚ)) : worth c leaps now o ≤ c.capacity := by
  cases o with
  | none => exact le_rfl
  | some b => exact min_le_right _ _

theorem Settled.later {b : Bucket ℚ} (settled : Settled leaps t b) (later : t ≤ now) :
    Settled leaps now b :=
  ⟨settled.tokens, settled.within, Instant.le_trans settled.past later⟩

theorem Sound.later (sound : Sound leaps t bs) (later : t ≤ now) : Sound leaps now bs :=
  ⟨sound.once, fun e mem => (sound.settled e mem).later later⟩

theorem Sound.of_find? (sound : Sound leaps now bs) {b : Bucket ℚ} (found : bs.find? key = some b) :
    Settled leaps now b :=
  sound.settled (key, b) (Buckets.mem_of_lookup found)

theorem sound_empty : Sound leaps now .empty := by
  constructor <;> simp [Buckets.empty, Buckets.keys]

theorem worth_nonneg (filling : Filling c) (sound : Sound leaps now bs) (key : String) :
    0 ≤ worth c leaps now (bs.find? key) := by
  have capacity : (0 : ℚ) ≤ c.capacity := Nat.cast_nonneg _
  cases found : bs.find? key with
  | none => exact capacity
  | some b =>
    have settled := sound.of_find? found
    have passed := Instant.secondsBetween_nonneg settled.past settled.within
    have gained := mul_nonneg passed filling.refill.le
    exact le_min (by linarith [settled.tokens]) capacity

theorem worth_later (filling : Filling c) (later : t ≤ now) (shown : t.Within leaps)
    (o : Option (Bucket ℚ)) :
    worth c leaps now o ≤ worth c leaps t o + secondsBetween leaps t now * c.refillPerSecond := by
  have passed := Instant.secondsBetween_nonneg later shown
  have gain := mul_nonneg passed filling.refill.le
  cases o with
  | none => simpa [worth] using gain
  | some b =>
    have split := Instant.secondsBetween_add leaps b.refilledAt t now
    simp only [worth]
    rw [← min_add_add_right, ← split]
    apply min_le_min
    · linarith [add_mul (secondsBetween leaps b.refilledAt t) (secondsBetween leaps t now)
        c.refillPerSecond]
    · linarith

theorem worth_of_isIdle (filling : Filling c) {b : Bucket ℚ} (settled : Settled leaps now b)
    (idle : c.isIdle b now = true) : worth c leaps now (some b) = c.capacity := by
  have since : (c.idleTtl.nanos : ℤ) ≤ now.since b.refilledAt := by
    simp only [Config.isIdle, Bool.and_eq_true, decide_eq_true_eq] at idle
    exact idle.2
  have passed := since.trans (Instant.since_le_running settled.past settled.within)
  have seconds : c.idleSeconds ≤ secondsBetween leaps b.refilledAt now := by
    unfold Config.idleSeconds secondsBetween
    gcongr
    exact_mod_cast passed
  have filled := mul_le_mul_of_nonneg_right seconds filling.refill.le
  apply min_eq_right
  linarith [settled.tokens, filling.idle]

theorem worth_swept (filling : Filling c) (sound : Sound leaps now bs) :
    worth c leaps now ((bs.swept c now).lookup key) = worth c leaps now (bs.find? key) := by
  rcases Buckets.lookup_swept c now key sound.once with
    same | ⟨gone, b, found, idle⟩
  · rw [same]
  · rw [gone, found, worth_of_isIdle filling (sound.of_find? found) idle]
    rfl

/-- The bucket that a request fills holds no more than the key is worth. -/
theorem bucketAt_spec (filling : Filling c) (shown : now.Within leaps) {o : Option (Bucket ℚ)}
    (settled : ∀ b, o = some b → Settled leaps now b) :
    Settled leaps now (Buckets.bucketAt c now o) ∧
      (Buckets.bucketAt c now o).refilledAt = now ∧
      (Buckets.bucketAt c now o).tokens ≤ worth c leaps now o := by
  have capacity : (0 : ℚ) ≤ c.capacity := Nat.cast_nonneg _
  have fresh : Settled leaps now ⟨c.refill c.full .zero, now⟩ :=
    ⟨by rw [Config.refill_full]; exact capacity, shown, Instant.le_refl _⟩
  cases o with
  | none => exact ⟨fresh, rfl, (Config.refill_full c).le⟩
  | some b =>
    have before := settled b rfl
    by_cases idle : c.isIdle b now = true
    · simp only [Buckets.bucketAt, idle, if_true]
      refine ⟨fresh, trivial, ?_⟩
      rw [worth_of_isIdle filling before idle]
      exact (Config.refill_full c).le
    · have elapsed := Instant.elapsedSince_le before.past before.within
      have gained := mul_le_mul_of_nonneg_right elapsed filling.refill.le
      have nonneg : (0 : ℚ) ≤ (now.elapsedSince b.refilledAt).nanos / 1000000000 :=
        div_nonneg (Nat.cast_nonneg _) (by norm_num)
      simp only [Buckets.bucketAt, idle, if_false, if_pos before.past, Config.refill_exact,
        Bool.false_eq_true]
      refine ⟨⟨?_, shown, Instant.le_refl _⟩, trivial, ?_⟩
      · exact le_min (by linarith [before.tokens, mul_nonneg nonneg filling.refill.le]) capacity
      · exact min_le_min (by linarith) le_rfl

theorem take_spec (b : Bucket ℚ) (tokens : 0 ≤ b.tokens) :
    0 ≤ (Buckets.take b).tokens ∧
      (Buckets.take b).tokens + (if (Buckets.take b).acquired then 1 else 0) = b.tokens := by
  rcases Buckets.take_exact b with ⟨token, taken⟩ | ⟨token, taken⟩
  · rw [taken]
    exact ⟨by simpa using token, by simp⟩
  · rw [taken]
    exact ⟨tokens, by simp⟩

theorem swept_settled (c : Config ℚ) (key : String) (sound : Sound leaps now bs) {b : Bucket ℚ}
    (found : (bs.swept c now).lookup key = some b) : Settled leaps now b :=
  sound.settled _ (Buckets.mem_of_mem_swept (Buckets.mem_of_lookup found))

theorem Sound.acquire (filling : Filling c) (shown : now.Within leaps)
    (sound : Sound leaps now bs) (key : String) : Sound leaps now (bs.acquire c key now).2 := by
  obtain ⟨filled, at_now, -⟩ := bucketAt_spec filling shown
    (fun b found => swept_settled c key sound found)
  obtain ⟨tokens, -⟩ := take_spec _ filled.tokens
  refine ⟨Buckets.nodup_keys_putEntry (Buckets.nodup_keys_swept sound.once), ?_⟩
  intro e mem
  rcases Buckets.mem_putEntry mem with rfl | old
  · exact ⟨tokens, filled.within, filled.past⟩
  · exact sound.settled e (Buckets.mem_of_mem_swept old)

/-- One request pays with the worth of its key for being granted, and leaves all other keys as they
were. -/
theorem worth_acquire (filling : Filling c) (shown : now.Within leaps)
    (sound : Sound leaps now bs) (asked key : String) :
    worth c leaps now ((bs.acquire c asked now).2.find? key) +
        (if asked = key ∧ (bs.acquire c asked now).1.acquired then 1 else 0) ≤
      worth c leaps now (bs.find? key) := by
  rw [← worth_swept filling sound]
  by_cases same : asked = key
  · subst same
    obtain ⟨filled, at_now, bounded⟩ := bucketAt_spec filling shown
      (fun b found => swept_settled c asked sound found)
    obtain ⟨-, paid⟩ := take_spec _ filled.tokens
    simp only [Buckets.acquire, Buckets.find?, Buckets.lookup_putEntry_self, true_and]
    refine le_trans ?_ bounded
    rw [← paid]
    gcongr
    simp [worth, at_now]
  · simp only [Buckets.acquire, Buckets.find?, same, false_and, if_false, add_zero]
    rw [Buckets.lookup_putEntry_of_ne (Ne.symm same)]

variable {l : Limiter ℚ} {checks : List Check}

def upTo (key : String) (t1 : Instant) (q : Check) : Bool := q.key = key ∧ q.time ≤ t1

def inWindow (key : String) (t0 t1 : Instant) (q : Check) : Bool := t0 ≤ q.time ∧ upTo key t1 q

theorem admitted_subset {α : Type} [Amount α] {l : Limiter α} {bs : Buckets α} (q : Check)
    (h : q ∈ l.admitted bs checks) : q ∈ checks := by
  induction checks generalizing bs with
  | nil => exact h
  | cons first rest ih =>
    simp only [Limiter.admitted] at h
    split at h
    · rcases List.mem_cons.mp h with rfl | later
      · exact List.mem_cons_self
      · exact List.mem_cons_of_mem _ (ih later)
    · exact List.mem_cons_of_mem _ (ih h)

/-- The allowed checks of a kind are the first one, if it is allowed and of that kind, and those
after it. -/
theorem countP_admitted_cons {α : Type} [Amount α] {l : Limiter α} {bs : Buckets α}
    (p : Check → Bool) (q : Check) :
    (l.admitted bs (q :: checks)).countP p =
      (if p q ∧ (bs.acquire l.config q.key q.time).1.acquired then 1 else 0) +
        (l.admitted (bs.acquire l.config q.key q.time).2 checks).countP p := by
  have allowed := Limiter.allows_serve l bs q
  simp only [Limiter.admitted]
  by_cases token : (bs.acquire l.config q.key q.time).1.acquired = true
  · rw [if_pos (allowed.trans token), List.countP_cons]
    simp only [token, and_true, Limiter.serve]
    omega
  · rw [if_neg (by rwa [allowed])]
    simp [token, Limiter.serve]

theorem countP_admitted_eq_zero {p : Check → Bool} (none : ∀ q ∈ checks, ¬ p q = true) :
    (l.admitted bs checks).countP p = 0 :=
  List.countP_eq_zero.mpr fun q mem => none q (admitted_subset q mem)

/-- From any point of a run on, no more is admitted for a key than it is worth there and than is
refilled until the end. -/
theorem admitted_le_worth (filling : Filling l.config)
    (ordered : checks.Pairwise fun a b => a.time ≤ b.time)
    (shown : ∀ q ∈ checks, q.time.Within leaps) (key : String) (sound : Sound leaps t bs)
    (start : t.Within leaps) (coming : ∀ q ∈ checks, t ≤ q.time) (order : t ≤ t1) :
    ((l.admitted bs checks).countP (upTo key t1) : ℚ) ≤
      worth l.config leaps t (bs.find? key) +
        secondsBetween leaps t t1 * l.config.refillPerSecond := by
  have refilled := mul_nonneg (Instant.secondsBetween_nonneg order start) filling.refill.le
  have valued := worth_nonneg filling sound key
  induction checks generalizing bs t with
  | nil =>
    simp only [Limiter.admitted, List.countP_nil, Nat.cast_zero]
    linarith
  | cons q rest ih =>
    obtain ⟨later, ordered⟩ := List.pairwise_cons.mp ordered
    have reached : t ≤ q.time := coming q List.mem_cons_self
    have shownNow : q.time.Within leaps := shown q List.mem_cons_self
    by_cases due : q.time ≤ t1
    · have here := sound.later reached
      have after := here.acquire filling shownNow q.key
      have remaining := ih ordered (fun p mem => shown p (List.mem_cons_of_mem _ mem)) after
        shownNow later due
        (mul_nonneg (Instant.secondsBetween_nonneg due shownNow) filling.refill.le)
        (worth_nonneg filling after key)
      have paid := worth_acquire filling shownNow here q.key key
      have gained := worth_later filling reached start (bs.find? key)
      have split := Instant.secondsBetween_add leaps t q.time t1
      have counted : upTo key t1 q = decide (q.key = key) := by simp [upTo, due]
      rw [countP_admitted_cons, counted, ← split, add_mul]
      push_cast
      simp only [decide_eq_true_eq]
      linarith
    · have none : ∀ p ∈ q :: rest, ¬ upTo key t1 p = true := by
        intro p mem within
        simp only [upTo, decide_eq_true_eq] at within
        have after : q.time ≤ p.time := by
          rcases List.mem_cons.mp mem with rfl | mem
          · exact Instant.le_refl _
          · exact later p mem
        exact due (Instant.le_trans after within.2)
      rw [countP_admitted_eq_zero none, Nat.cast_zero]
      linarith

theorem admitted_inWindow_le (filling : Filling l.config)
    (ordered : checks.Pairwise fun a b => a.time ≤ b.time)
    (shown : ∀ q ∈ checks, q.time.Within leaps) (key : String) (sound : Sound leaps t bs)
    (coming : ∀ q ∈ checks, t ≤ q.time) (before : t ≤ t0) (start : t0.Within leaps)
    (order : t0 ≤ t1) :
    ((l.admitted bs checks).countP (inWindow key t0 t1) : ℚ) ≤
      l.config.capacity + secondsBetween leaps t0 t1 * l.config.refillPerSecond := by
  have refilled := mul_nonneg (Instant.secondsBetween_nonneg order start) filling.refill.le
  have capacity : (0 : ℚ) ≤ l.config.capacity := Nat.cast_nonneg _
  induction checks generalizing bs t with
  | nil =>
    simp only [Limiter.admitted, List.countP_nil, Nat.cast_zero]
    linarith
  | cons q rest ih =>
    obtain ⟨later, remaining⟩ := List.pairwise_cons.mp ordered
    by_cases inside : t0 ≤ q.time
    · -- the window has begun: what is admitted in it is what is admitted up to its end
      have coming : ∀ p ∈ q :: rest, t0 ≤ p.time := by
        intro p mem
        rcases List.mem_cons.mp mem with rfl | mem
        · exact inside
        · exact Instant.le_trans inside (later p mem)
      have bound := admitted_le_worth filling ordered shown key (sound.later before) start coming
        order
      have full := worth_le_capacity l.config leaps t0 (bs.find? key)
      have fewer : (l.admitted bs (q :: rest)).countP (inWindow key t0 t1) ≤
          (l.admitted bs (q :: rest)).countP (upTo key t1) :=
        List.countP_mono_left fun p _ within => by
          simp only [inWindow, decide_eq_true_eq] at within
          exact within.2
      have fewer : ((l.admitted bs (q :: rest)).countP (inWindow key t0 t1) : ℚ) ≤
          ((l.admitted bs (q :: rest)).countP (upTo key t1) : ℚ) := by exact_mod_cast fewer
      linarith
    · have outside : inWindow key t0 t1 q = false := by simp [inWindow, inside]
      have after := (sound.later (coming q List.mem_cons_self)).acquire filling
        (shown q List.mem_cons_self) q.key
      have rest := ih remaining (fun p mem => shown p (List.mem_cons_of_mem _ mem)) after later
        (Instant.le_of_not_le inside)
      rw [countP_admitted_cons, outside]
      simpa using rest

/-- The seconds in which a check showed a leap second. -/
def leapsShown (checks : List Check) : Finset ℤ :=
  ((checks.filter fun q => 1000000000 ≤ q.time.nano).map fun q => q.time.second).toFinset

theorem mem_leapsShown {s : ℤ} : s ∈ leapsShown checks ↔
    ∃ q ∈ checks, 1000000000 ≤ q.time.nano ∧ q.time.second = s := by
  simp [leapsShown, and_assoc]

/-- A leap second that passes in a window and is shown by a check is shown in the window, if not by
its beginning. -/
theorem mem_of_leapsShown (start : t0.Within leaps)
    (shown : ∀ q ∈ checks, t0 ≤ q.time → q.time ≤ t1 → q.time.Within leaps) {s : ℤ}
    (mem : s ∈ leapsShown checks) (begun : t0.second ≤ s) (ended : s < t1.second) : s ∈ leaps := by
  obtain ⟨q, asked, leap, rfl⟩ := mem_leapsShown.mp mem
  have ends : q.time ≤ t1 := by
    rcases Int.le_total q.time.key t1.key with before | after
    · exact before
    · have := Instant.second_le_of_le after
      omega
  by_cases inside : t0 ≤ q.time
  · exact shown q asked inside ends leap
  · -- the check came before the window, so the window begins in the same leap second
    have before := Instant.le_of_not_le inside
    have same : q.time.second = t0.second := le_antisymm (Instant.second_le_of_le before) begun
    have later := Instant.nano_le_of_le before same
    rw [same]
    exact start (leap.trans later)

/-- How many checks of a key are admitted in a window of time, whatever other keys ask for and
whenever buckets start anew or are swept. -/
structure Bounded (l : Limiter ℚ) (checks : List Check) (key : String) (t0 t1 : Instant) :
    Prop where
  /-- Apart from leap seconds, the capacity and what is refilled in the difference of the two
  ends. -/
  plain : t0.nano < 1000000000 → t1.nano < 1000000000 →
    (∀ q ∈ checks, t0 ≤ q.time → q.time ≤ t1 → q.time.nano < 1000000000) →
    ((l.admitted .empty checks).countP (inWindow key t0 t1) : ℚ) ≤
      l.config.capacity + (t1.since t0 : ℚ) / 1000000000 * l.config.refillPerSecond
  /-- In any case, the capacity and what is refilled in the time that passes with the leap seconds
  which the beginning of the window or a check in it showed. -/
  running : ∀ leaps : Finset ℤ, t0.Within leaps →
    (∀ q ∈ checks, t0 ≤ q.time → q.time ≤ t1 → q.time.Within leaps) →
    ((l.admitted .empty checks).countP (inWindow key t0 t1) : ℚ) ≤
      l.config.capacity + secondsBetween leaps t0 t1 * l.config.refillPerSecond

/-- In any window of time, a key is granted no more checks than its capacity and what is refilled in
that time. -/
theorem admitted_le_of_window {capacity : Nat} {refillPerMinute : ℚ} {idleTtl : Duration}
    (accepted : Config.perMinute capacity refillPerMinute idleTtl = .ok l.config)
    (idle : (l.config.capacity : ℚ) ≤ l.config.idleSeconds * l.config.refillPerSecond)
    (ordered : checks.Pairwise fun a b => a.time ≤ b.time) (order : t0 ≤ t1) (key : String) :
    Bounded l checks key t0 t1 := by
  obtain ⟨-, refill⟩ := Config.of_perMinute accepted
  have running : ∀ leaps : Finset ℤ, t0.Within leaps →
      (∀ q ∈ checks, t0 ≤ q.time → q.time ≤ t1 → q.time.Within leaps) →
      ((l.admitted .empty checks).countP (inWindow key t0 t1) : ℚ) ≤
        l.config.capacity + secondsBetween leaps t0 t1 * l.config.refillPerSecond := by
    intro leaps start shown
    have all : ∀ q ∈ checks, q.time.Within (leaps ∪ leapsShown checks) := fun q mem leap =>
      Finset.mem_union_right _ (mem_leapsShown.mpr ⟨q, mem, leap, rfl⟩)
    have begun : t0.Within (leaps ∪ leapsShown checks) := fun leap =>
      Finset.mem_union_left _ (start leap)
    -- leap seconds outside of the window make no difference
    have same : secondsBetween (leaps ∪ leapsShown checks) t0 t1 = secondsBetween leaps t0 t1 := by
      refine Instant.secondsBetween_congr order fun s begun ended => ?_
      rw [Finset.mem_union, or_iff_left_of_imp]
      exact fun mem => mem_of_leapsShown start shown mem begun ended
    rw [← same]
    exact admitted_inWindow_le ⟨refill, idle⟩ ordered all key sound_empty
      (fun q _ => Instant.earliest_le q.time) (Instant.earliest_le t0) begun order
  refine ⟨fun plain_start plain_end plain => ?_, running⟩
  rw [← Instant.secondsBetween_of_plain plain_start plain_end]
  refine running ∅ (fun leap => absurd leap (by omega)) fun q mem begun ended leap => ?_
  exact absurd leap (by have := plain q mem begun ended; omega)

namespace Sample

def limiter : Limiter ℚ := ⟨⟨4, 120 / Amount.ofNat 60, Duration.ofSeconds 2⟩, true⟩

def lastOfYear : Instant := .ofSecond 1483228799

/-- Nine tenths of the leap second are over. -/
def withinLeapSecond : Instant := (Instant.ofParts? 1483228799 1900000000).getD default

def newYear : Instant := .ofSecond 1483228800

/-- A client who asks for more than it gets, at two times, and another one in between. -/
def burst (start later : Instant) : List Check :=
  List.replicate 5 ⟨"ann", start⟩ ++ [⟨"bob", start⟩] ++ List.replicate 4 ⟨"ann", later⟩

end Sample

/-- The bound is reached: four checks at once, and the two tokens of the second that passed. The
leap second was over before. -/
theorem admitted_le_of_window_when_tight :
    let checks := Sample.burst Sample.newYear (.ofSecond 1483228801)
    Config.perMinute 4 (120 : ℚ) (Duration.ofSeconds 2) = .ok Sample.limiter.config ∧
      (Sample.limiter.admitted .empty checks).countP
        (inWindow "ann" Sample.newYear (.ofSecond 1483228801)) = 6 ∧
      ((Sample.limiter.admitted .empty checks).countP
          (inWindow "ann" Sample.newYear (.ofSecond 1483228801)) : ℚ) ≤
        Sample.limiter.config.capacity +
          ((Instant.ofSecond 1483228801).since Sample.newYear : ℚ) / 1000000000 *
            Sample.limiter.config.refillPerSecond := by
  intro checks
  have accepted : Config.perMinute 4 (120 : ℚ) (Duration.ofSeconds 2) = .ok Sample.limiter.config :=
    rfl
  have bounded : Bounded Sample.limiter checks "ann" Sample.newYear (.ofSecond 1483228801) :=
    admitted_le_of_window accepted (by decide +kernel) (by decide +kernel) (by decide) "ann"
  exact ⟨accepted, by decide +kernel,
    bounded.plain (by decide) (by decide) (by decide +kernel)⟩

/-- In a leap second the difference of two readings is too small. Nine tenths of the leap second are
enough for three more checks, and yet the window that ends with it has only one second by that
difference. -/
theorem window_exceeded_in_leap_second :
    let checks := Sample.burst Sample.lastOfYear Sample.withinLeapSecond
    Config.perMinute 4 (120 : ℚ) (Duration.ofSeconds 2) = .ok Sample.limiter.config ∧
      (Sample.limiter.config.capacity : ℚ) ≤
        Sample.limiter.config.idleSeconds * Sample.limiter.config.refillPerSecond ∧
      (checks.Pairwise fun a b => a.time ≤ b.time) ∧ Sample.lastOfYear ≤ Sample.newYear ∧
      ¬((Sample.limiter.admitted .empty checks).countP
          (inWindow "ann" Sample.lastOfYear Sample.newYear) : ℚ) ≤
        Sample.limiter.config.capacity +
          (Sample.newYear.since Sample.lastOfYear : ℚ) / 1000000000 *
            Sample.limiter.config.refillPerSecond :=
  ⟨rfl, by decide +kernel, by decide +kernel, by decide, by decide +kernel⟩

end Courier.RateLimit
