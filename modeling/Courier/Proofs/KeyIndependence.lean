import Courier.Proofs.RateBound

/-!
Keys that share one table of buckets. What a key is granted depends on its own requests alone: the
requests of others can only make a sweep drop its bucket once it is idle, and a bucket that is idle
is replaced by a full one just as if it were missing. That holds as long as an idle bucket stays
idle, which the difference of two clock readings does not promise within a leap second.
-/
namespace Courier.RateLimit

variable {α : Type} {c : Config α} {b : Bucket α} {bs alone : Buckets α}
  {now t u : Instant} {coming : List Instant} {key : String} {q : Check} {checks : List Check}

def Steady (idleTtl : Duration) (times : List Instant) : Prop :=
  ∀ start ∈ times, ∀ t ∈ times, ∀ u ∈ times, start ≤ t → t ≤ u →
    (idleTtl.nanos : ℤ) ≤ t.since start → (idleTtl.nanos : ℤ) ≤ u.since start

/-- Readings outside leap seconds are steady, whatever the idle time. -/
theorem steady_of_plain {times : List Instant} (idleTtl : Duration)
    (plain : ∀ t ∈ times, t.nano < 1000000000) : Steady idleTtl times := by
  intro start atStart t atT u atU _ later idle
  have order : t.key ≤ u.key := later
  have hs := plain start atStart
  have ht := plain t atT
  have hu := plain u atU
  unfold Instant.key at order
  unfold Instant.since at idle ⊢
  rw [if_neg (by omega), if_neg (by omega)] at idle ⊢
  omega

namespace Config

theorem isIdle_iff : c.isIdle b t = true ↔ (c.idleTtl.nanos : ℤ) ≤ t.since b.refilledAt := by
  simp only [isIdle, Bool.and_eq_true, decide_eq_true_eq]
  omega

/-- Once the bucket is idle at a reading to come, it is idle at all later ones. -/
def StaysIdle (c : Config α) (coming : List Instant) (b : Bucket α) : Prop :=
  ∀ t ∈ coming, ∀ u ∈ coming, t ≤ u → c.isIdle b t = true → c.isIdle b u = true

/-- Only when the bucket was filled counts. -/
theorem StaysIdle.of_refilledAt_eq {b' : Bucket α} (h : c.StaysIdle coming b)
    (same : b'.refilledAt = b.refilledAt) : c.StaysIdle coming b' := by
  intro t atT u atU later idle
  rw [isIdle_iff, same] at idle ⊢
  exact isIdle_iff.mp (h t atT u atU later (isIdle_iff.mpr idle))

theorem StaysIdle.of_steady {times : List Instant} (steady : Steady c.idleTtl times)
    (filled : b.refilledAt ∈ times) (fewer : coming ⊆ times)
    (first : ∀ t ∈ coming, b.refilledAt ≤ t) : c.StaysIdle coming b := by
  intro t atT u atU later idle
  rw [isIdle_iff] at idle ⊢
  exact steady _ filled t (fewer atT) u (fewer atU) (first t atT) later idle

end Config

namespace Buckets

/-- Every key has one bucket, and idle ones stay idle. -/
structure Lasting (c : Config α) (coming : List Instant) (bs : Buckets α) : Prop where
  once : (keys bs.entries).Nodup
  idle : ∀ e ∈ bs.entries, c.StaysIdle coming e.2

theorem lasting_empty : Lasting c coming .empty := ⟨List.nodup_nil, fun _ mem => nomatch mem⟩

theorem Lasting.mono {fewer : List Instant} (h : Lasting c coming bs) (sub : fewer ⊆ coming) :
    Lasting c fewer bs :=
  ⟨h.once, fun e mem t atT u atU => h.idle e mem t (sub atT) u (sub atU)⟩

variable [Amount α]

def grants (c : Config α) : Buckets α → List Check → List (Check × Grant α)
  | _, [] => []
  | bs, q :: rest =>
    let (grant, after) := bs.acquire c q.key q.time
    (q, grant) :: after.grants c rest

def grantsOf (c : Config α) (bs : Buckets α) (key : String) (checks : List Check) :
    List (Check × Grant α) :=
  (bs.grants c checks).filter fun e => e.1.key == key

theorem bucketAt_of_isIdle (idle : c.isIdle b t = true) :
    bucketAt c t (some b) = bucketAt c t none := by
  simp only [bucketAt, if_pos idle]

/-- A bucket that was filled was filled now, or else at a later time, as it had been before. -/
theorem refilledAt_bucketAt (c : Config α) (now : Instant) (o : Option (Bucket α)) :
    (bucketAt c now o).refilledAt = now ∨
      ∃ b, o = some b ∧ now < b.refilledAt ∧ (bucketAt c now o).refilledAt = b.refilledAt := by
  cases o with
  | none => exact .inl rfl
  | some b =>
    by_cases idle : c.isIdle b now = true
    · exact .inl (by simp [bucketAt, idle])
    · by_cases past : b.refilledAt ≤ now
      · exact .inl (by simp [bucketAt, idle, past])
      · exact .inr ⟨b, rfl, Int.not_le.mp past, by simp [bucketAt, idle, past]⟩

/-- A request keeps the buckets lasting, if a bucket that is filled now stays idle once it is. -/
theorem Lasting.acquire (h : Lasting c coming bs)
    (fresh : ∀ b : Bucket α, b.refilledAt = now → c.StaysIdle coming b) (key : String) :
    Lasting c coming (bs.acquire c key now).2 := by
  refine ⟨nodup_keys_putEntry (nodup_keys_swept h.once), ?_⟩
  intro e mem
  rcases mem_putEntry mem with rfl | old
  · rcases refilledAt_bucketAt c now ((bs.swept c now).lookup key) with
      filled | ⟨b, found, _, same⟩
    · exact fresh _ filled
    · exact (h.idle _ (mem_of_mem_swept (mem_of_lookup found))).of_refilledAt_eq same
  · exact h.idle e (mem_of_mem_swept old)

/-- A sweep cannot be told: at no later reading does a request find another bucket than without
it. -/
theorem bucketAt_swept (h : Lasting c coming bs) (atNow : now ∈ coming) (atT : t ∈ coming)
    (later : now ≤ t) (key : String) :
    bucketAt c t ((bs.swept c now).lookup key) = bucketAt c t (bs.find? key) := by
  rcases lookup_swept c now key h.once with same | ⟨gone, b, found, idle⟩
  · rw [same]
  · have stays := h.idle _ (mem_of_lookup found) now atNow t atT later idle
    rw [gone, found, bucketAt_of_isIdle stays]

/-- At none of these readings does a request of the key find different buckets. -/
def Alike (c : Config α) (coming : List Instant) (key : String) (bs alone : Buckets α) : Prop :=
  ∀ t ∈ coming, bucketAt c t (bs.find? key) = bucketAt c t (alone.find? key)

/-- Another key's request is not noticed. -/
theorem Alike.other (h : Alike c coming key bs alone) (lasting : Lasting c coming bs)
    (atNow : now ∈ coming) (first : ∀ t ∈ coming, now ≤ t) {asked : String} (other : key ≠ asked) :
    Alike c coming key (bs.acquire c asked now).2 alone := by
  intro t atT
  rw [← h t atT, ← bucketAt_swept lasting atNow atT (first t atT)]
  simp only [acquire, find?, lookup_putEntry_of_ne other]

/-- The key's own request gets the same grant from both, and leaves the same bucket behind. -/
theorem Alike.own (h : Alike c coming key bs alone) (lasting : Lasting c coming bs)
    (lastingAlone : Lasting c coming alone) (atNow : now ∈ coming) :
    (bs.acquire c key now).1 = (alone.acquire c key now).1 ∧
      Alike c coming key (bs.acquire c key now).2 (alone.acquire c key now).2 := by
  have found : bucketAt c now ((bs.swept c now).lookup key) =
      bucketAt c now ((alone.swept c now).lookup key) := by
    have order := Instant.le_refl now
    rw [bucketAt_swept lasting atNow atNow order, bucketAt_swept lastingAlone atNow atNow order]
    exact h now atNow
  refine ⟨?_, fun t _ => ?_⟩
  · simp only [acquire, found]
  · simp only [acquire, find?, lookup_putEntry_self, found]

/-- From tables that a key cannot tell apart, it is granted the same, whether the others ask as well
or not. -/
theorem Alike.grantsOf (h : Alike c (checks.map Check.time) key bs alone)
    (ordered : checks.Pairwise fun a b => a.time ≤ b.time)
    (steady : Steady c.idleTtl (checks.map Check.time))
    (lasting : Lasting c (checks.map Check.time) bs)
    (lastingAlone : Lasting c (checks.map Check.time) alone) :
    bs.grantsOf c key checks = alone.grants c (checks.filter fun q => q.key == key) := by
  induction checks generalizing bs alone with
  | nil => rfl
  | cons q rest ih =>
    obtain ⟨later, ordered⟩ := List.pairwise_cons.mp ordered
    have atNow : q.time ∈ (q :: rest).map Check.time := List.mem_cons_self
    have fewer : rest.map Check.time ⊆ (q :: rest).map Check.time := List.subset_cons_self _ _
    have first : ∀ t ∈ rest.map Check.time, q.time ≤ t := List.forall_mem_map.mpr later
    have remaining : Steady c.idleTtl (rest.map Check.time) :=
      fun start atStart t atT u atU => steady start (fewer atStart) t (fewer atT) u (fewer atU)
    have fresh (b : Bucket α) (filled : b.refilledAt = q.time) :
        c.StaysIdle (rest.map Check.time) b :=
      .of_steady steady (filled ▸ atNow) fewer (filled ▸ first)
    -- only the readings to come have to find the idle buckets idle
    have after := (lasting.mono fewer).acquire fresh q.key
    by_cases own : q.key = key
    · subst own
      obtain ⟨same, alike⟩ := h.own lasting lastingAlone atNow
      have afterAlone := (lastingAlone.mono fewer).acquire fresh q.key
      have granted := ih (fun t atT => alike t (fewer atT)) ordered remaining after afterAlone
      simp only [Buckets.grantsOf, grants, List.filter_cons, beq_self_eq_true, if_true] at granted ⊢
      rw [same, granted]
    · have notFirst : ∀ t ∈ (q :: rest).map Check.time, q.time ≤ t := by
        intro t atT
        rcases List.mem_cons.mp atT with rfl | atT
        · exact Instant.le_refl _
        · exact first t atT
      have alike := h.other lasting atNow notFirst (Ne.symm own)
      have granted := ih (fun t atT => alike t (fewer atT)) ordered remaining after
        (lastingAlone.mono fewer)
      simpa only [Buckets.grantsOf, grants, List.filter_cons, beq_false_of_ne own,
        Bool.false_eq_true, if_false] using granted

end Buckets

/-- What a key is granted is what it would be granted if it were alone, whatever the others ask for
and whenever the sweep comes, at readings that are in order and steady. -/
theorem grantsOf_eq_alone [Amount α] (c : Config α) (key : String)
    (ordered : checks.Pairwise fun a b => a.time ≤ b.time)
    (steady : Steady c.idleTtl (checks.map Check.time)) :
    Buckets.grantsOf c .empty key checks =
      Buckets.grants c .empty (checks.filter fun q => q.key == key) :=
  Buckets.Alike.grantsOf (fun _ _ => rfl) ordered steady Buckets.lasting_empty Buckets.lasting_empty

namespace Buckets

variable [Amount α] {others more : List Check}

def after (c : Config α) : Buckets α → List Check → Buckets α
  | bs, [] => bs
  | bs, q :: rest => (bs.acquire c q.key q.time).2.after c rest

theorem after_append (c : Config α) (bs : Buckets α) (checks more : List Check) :
    bs.after c (checks ++ more) = (bs.after c checks).after c more := by
  induction checks generalizing bs with
  | nil => rfl
  | cons q rest ih => exact ih _

theorem grants_append (c : Config α) (bs : Buckets α) (checks more : List Check) :
    bs.grants c (checks ++ more) = bs.grants c checks ++ (bs.after c checks).grants c more := by
  induction checks generalizing bs with
  | nil => rfl
  | cons q rest ih => exact congrArg ((q, (bs.acquire c q.key q.time).1) :: ·) (ih _)

theorem grantsOf_append (c : Config α) (bs : Buckets α) (key : String) (checks more : List Check) :
    bs.grantsOf c key (checks ++ more) =
      bs.grantsOf c key checks ++ (bs.after c checks).grantsOf c key more := by
  simp only [grantsOf, grants_append, List.filter_append]

theorem grantsOf_others (notOf : ∀ q ∈ others, q.key ≠ key) : bs.grantsOf c key others = [] := by
  induction others generalizing bs with
  | nil => rfl
  | cons q rest ih =>
    obtain ⟨other, notOf⟩ := List.forall_mem_cons.mp notOf
    simpa [grantsOf, grants, other] using ih notOf

theorem acquires_after (c : Config α) (bs : Buckets α) (checks : List Check) :
    (bs.after c checks).acquires = bs.acquires + checks.length := by
  induction checks generalizing bs with
  | nil => rfl
  | cons q rest ih =>
    have first : (bs.acquire c q.key q.time).2.acquires = bs.acquires + 1 := rfl
    rw [after, ih, first, List.length_cons]
    omega

theorem nodup_keys_after (c : Config α) (checks : List Check) (once : (keys bs.entries).Nodup) :
    (keys (bs.after c checks).entries).Nodup := by
  induction checks generalizing bs with
  | nil => exact once
  | cons q rest ih => exact ih (nodup_keys_putEntry (nodup_keys_swept once))

theorem find?_after_others (c : Config α) (notOf : ∀ q ∈ others, q.key ≠ key)
    (few : bs.acquires + others.length < sweepInterval) :
    (bs.after c others).find? key = bs.find? key := by
  induction others generalizing bs with
  | nil => rfl
  | cons q rest ih =>
    obtain ⟨other, notOf⟩ := List.forall_mem_cons.mp notOf
    rw [List.length_cons] at few
    have noSweep : bs.acquires % sweepInterval ≠ sweepInterval - 1 := by
      unfold sweepInterval at few ⊢
      omega
    have first : (bs.acquire c q.key q.time).2.acquires = bs.acquires + 1 := rfl
    rw [after, ih notOf (by omega)]
    simp only [acquire, find?, lookup_putEntry_of_ne (Ne.symm other), swept, if_neg noSweep]

theorem find?_acquire_of_sweep (once : (keys bs.entries).Nodup)
    (sweeps : bs.acquires % sweepInterval = sweepInterval - 1) {asked : String}
    (other : key ≠ asked) (found : bs.find? key = some b) (idle : c.isIdle b now = true) :
    (bs.acquire c asked now).2.find? key = none := by
  simp only [acquire, find?, lookup_putEntry_of_ne other, swept, if_pos sweeps] at found ⊢
  rw [lookup_filter (fun b => !c.isIdle b now) once, found]
  simp [Option.filter, idle]

end Buckets

namespace Sample

variable {start sweep back t : Instant}

/-- One client asks, and then others so often that their next request sweeps, which comes at a time
of its own. Then the first client asks again. -/
def crowd (start sweep back : Instant) : List Check :=
  ⟨"ann", start⟩ :: (List.replicate (Buckets.sweepInterval - 2) ⟨"bob", start⟩ ++
    [⟨"bob", sweep⟩, ⟨"ann", back⟩])

theorem ordered_crowd (first : start ≤ sweep) (second : sweep ≤ back) :
    (crowd start sweep back).Pairwise fun a b => a.time ≤ b.time := by
  unfold crowd
  generalize Buckets.sweepInterval - 2 = many
  have both := Instant.le_trans first second
  have order := Instant.le_refl start
  simp only [List.pairwise_cons, List.pairwise_append, List.pairwise_replicate, List.mem_append,
    List.mem_cons, List.mem_replicate, List.not_mem_nil, or_false]
  refine ⟨?_, .inr order, ⟨?_, ?_, .nil⟩, ?_⟩
  · rintro q (⟨_, rfl⟩ | rfl | rfl) <;> assumption
  · rintro q rfl
    exact second
  · exact fun _ mem => nomatch mem
  · rintro q ⟨_, rfl⟩ q' (rfl | rfl) <;> assumption

theorem times_crowd (mem : t ∈ (crowd start sweep back).map Check.time) :
    t = start ∨ t = sweep ∨ t = back := by
  unfold crowd at mem
  generalize Buckets.sweepInterval - 2 = many at mem
  simp only [List.map_append, List.map_cons, List.map_replicate, List.map_nil, List.mem_append,
    List.mem_cons, List.mem_replicate, List.not_mem_nil, or_false] at mem
  rcases mem with rfl | ⟨_, rfl⟩ | rfl | rfl <;> simp

theorem filter_crowd : (crowd start sweep back).filter (fun q => q.key == "ann") =
    [⟨"ann", start⟩, ⟨"ann", back⟩] := by
  unfold crowd
  generalize Buckets.sweepInterval - 2 = many
  simp

variable [Amount α]

/-- What the first client is granted: a token of a new bucket, and if the sweep finds that bucket
idle, one of another new bucket. -/
theorem grantsOf_crowd (c : Config α)
    (idle : c.isIdle ⟨(Buckets.take (Buckets.bucketAt c start none)).tokens, start⟩ sweep = true) :
    Buckets.grantsOf c .empty "ann" (crowd start sweep back) =
      [(⟨"ann", start⟩, Buckets.take (Buckets.bucketAt c start none)),
        (⟨"ann", back⟩, Buckets.take (Buckets.bucketAt c back none))] := by
  let first : Buckets α := (Buckets.empty.acquire c "ann" start).2
  let others := List.replicate (Buckets.sweepInterval - 2) (⟨"bob", start⟩ : Check)
  have notOf : ∀ q ∈ others, q.key ≠ "ann" := by
    intro q mem
    rw [List.eq_of_mem_replicate mem]
    exact (by decide : "bob" ≠ "ann")
  have length : others.length = Buckets.sweepInterval - 2 := List.length_replicate
  have once : (Buckets.keys first.entries).Nodup := List.nodup_singleton _
  have kept : (first.after c others).find? "ann" =
      some ⟨(Buckets.take (Buckets.bucketAt c start none)).tokens, start⟩ := by
    have few : first.acquires + others.length < Buckets.sweepInterval := by
      rw [length]
      exact (by decide : 1 + (Buckets.sweepInterval - 2) < Buckets.sweepInterval)
    rw [Buckets.find?_after_others c notOf few]
    rfl
  have count : (first.after c others).acquires = Buckets.sweepInterval - 1 := by
    rw [Buckets.acquires_after, length]
    rfl
  have gone := Buckets.find?_acquire_of_sweep (Buckets.nodup_keys_after c others once)
    (by rw [count]; decide) (by decide : "ann" ≠ "bob") kept idle
  -- the last request comes right after the sweep
  have noSweep : (first.after c others).acquires + 1 = Buckets.sweepInterval := by
    rw [count]
    rfl
  have last : (first.after c others).grantsOf c "ann" [⟨"bob", sweep⟩, ⟨"ann", back⟩] =
      [(⟨"ann", back⟩, Buckets.take (Buckets.bucketAt c back none))] := by
    have swept : ((first.after c others).acquire c "bob" sweep).2.swept c back =
        ((first.after c others).acquire c "bob" sweep).2.entries := by
      unfold Buckets.swept
      exact if_neg (by simp only [Buckets.acquire, noSweep]; decide)
    have granted : (((first.after c others).acquire c "bob" sweep).2.acquire c "ann" back).1 =
        Buckets.take (Buckets.bucketAt c back none) := by
      rw [← gone, Buckets.find?, ← swept]
      rfl
    simp [Buckets.grantsOf, Buckets.grants, granted]
  have split : crowd start sweep back =
      [⟨"ann", start⟩] ++ (others ++ [⟨"bob", sweep⟩, ⟨"ann", back⟩]) := rfl
  rw [split, Buckets.grantsOf_append, Buckets.grantsOf_append]
  change _ ++ (first.grantsOf c "ann" others ++
    (first.after c others).grantsOf c "ann" [⟨"bob", sweep⟩, ⟨"ann", back⟩]) = _
  rw [Buckets.grantsOf_others notOf, last]
  rfl

/-- Ten tokens, one more every ten seconds, and a bucket that starts anew after a second and a
half. -/
def slow : Config Float := ⟨10, 0.1, Duration.ofMillis 1500⟩

end Sample

/-- The sweep drops the bucket of a client who comes back a second later, when the bucket would
start anew anyway. -/
theorem grantsOf_eq_alone_when_swept :
    let checks := Sample.crowd Sample.lastOfYear (.ofSecond 1483228801) (.ofSecond 1483228802)
    (checks.Pairwise fun a b => a.time ≤ b.time) ∧
      Steady Sample.slow.idleTtl (checks.map Check.time) ∧
      Buckets.grantsOf Sample.slow .empty "ann" checks =
        Buckets.grants Sample.slow .empty (checks.filter fun q => q.key == "ann") := by
  intro checks
  have ordered : checks.Pairwise fun a b => a.time ≤ b.time :=
    Sample.ordered_crowd (by decide) (by decide)
  have steady : Steady Sample.slow.idleTtl (checks.map Check.time) := by
    refine steady_of_plain _ fun t mem => ?_
    rcases Sample.times_crowd mem with rfl | rfl | rfl <;> decide
  exact ⟨ordered, steady, grantsOf_eq_alone Sample.slow "ann" ordered steady⟩

/-- In a leap second the sweep is noticed. It drops the bucket when nearly two seconds have passed,
and the client who comes back finds a full one. Alone, the client comes back after one second, as
far as the difference of the two readings tells, and the bucket is not idle. -/
theorem sweep_noticed_in_leap_second :
    let checks := Sample.crowd Sample.lastOfYear Sample.withinLeapSecond Sample.newYear
    (checks.Pairwise fun a b => a.time ≤ b.time) ∧
      Buckets.grantsOf Sample.slow .empty "ann" checks ≠
        Buckets.grants Sample.slow .empty (checks.filter fun q => q.key == "ann") := by
  intro checks
  refine ⟨Sample.ordered_crowd (by decide) (by decide), fun same => ?_⟩
  have alone : checks.filter (fun q => q.key == "ann") =
      [⟨"ann", Sample.lastOfYear⟩, ⟨"ann", Sample.newYear⟩] := Sample.filter_crowd
  rw [Sample.grantsOf_crowd Sample.slow (by decide +kernel), alone] at same
  have tokens := congrArg (List.map fun e => e.2.tokens == 9) same
  exact absurd tokens (by decide +kernel)

end Courier.RateLimit
