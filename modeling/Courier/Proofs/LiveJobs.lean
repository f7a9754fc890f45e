import Courier.Queue
import Mathlib.Data.List.Nodup
import Mathlib.Data.List.Perm.Subperm

namespace Courier.Queue

def keys (q : Queue) : List Job.Key := q.liveJobs.map Job.key

def tokens (q : Queue) : List Uuid := q.leased.map Held.token

/-- The live jobs and their places in the order of arrival. -/
def entries (q : Queue) : List Entry := q.waiting ++ q.leased.map Held.entry

/-- All that one try at leasing a job can come to. -/
inductive Tried (q : Queue) (now : Instant) (leaseFor : Duration) (token : Uuid) :
    Attempt → Queue → Prop
  | nothing (none_visible : (q.reclaim now).nextVisible now = none) :
      Tried q now leaseFor token .nothing (q.reclaim now)
  | leased {entry : Entry} {expiresAt : Instant}
      (next : (q.reclaim now).nextVisible now = some entry)
      (ends : now.add? leaseFor = some expiresAt) :
      Tried q now leaseFor token (.leased ⟨entry.job, token, expiresAt⟩)
        { q.reclaim now with
          waiting := (q.reclaim now).waiting.erase entry
          leased := (q.reclaim now).leased ++ [⟨token, entry, expiresAt⟩] }
  | outOfRange {entry : Entry} (next : (q.reclaim now).nextVisible now = some entry)
      (beyond : now.add? leaseFor = none) :
      Tried q now leaseFor token .outOfRange
        { q.reclaim now with waiting := (q.reclaim now).waiting.erase entry }

variable {q after : Queue} {job : Job} {key : Job.Key} {entry : Entry} {held : Held} {lease : Lease}
  {now : Instant} {leaseFor : Duration} {token : Uuid}

theorem liveJobs_eq (q : Queue) : q.liveJobs = q.entries.map Entry.job := by
  simp [liveJobs, entries]

theorem keys_eq_entries (q : Queue) : q.keys = q.entries.map fun e => e.job.key := by
  simp [keys, liveJobs_eq, Function.comp_def]

theorem mem_keys : key ∈ q.keys ↔ ∃ job ∈ q.liveJobs, job.key = key := List.mem_map

theorem keys_eq (q : Queue) : q.keys =
    q.waiting.map (fun e => e.job.key) ++ q.leased.map fun held => held.entry.job.key := by
  simp [keys, liveJobs, List.map_map, Function.comp_def]

theorem mem_keys_of_held (h : held ∈ q.leased) : held.entry.job.key ∈ q.keys := by
  rw [keys_eq]
  exact List.mem_append_right _ (List.mem_map.mpr ⟨held, h, rfl⟩)

theorem mem_keys_of_waiting (h : q.isWaiting key = true) : key ∈ q.keys := by
  obtain ⟨e, mem, same⟩ := List.any_eq_true.mp h
  rw [keys_eq, ← eq_of_beq same]
  exact List.mem_append_left _ (List.mem_map.mpr ⟨e, mem, rfl⟩)

theorem enqueue_eq_ok (h : q.enqueue job = .ok after) : after = q.push job := by
  unfold enqueue at h
  split at h
  · exact (Except.ok.inj h).symm
  · cases h

theorem ack_eq_ok {isHeld : Bool} (h : q.ack token = .ok (isHeld, after)) :
    (q.leased.any fun held => held.token == token) = isHeld ∧
      after = { q with leased := q.leased.filter fun held => held.token != token } := by
  unfold ack at h
  split at h
  · cases h
    exact ⟨rfl, rfl⟩
  · cases h

theorem leased_push (q : Queue) (job : Job) : (q.push job).leased.Sublist q.leased := by
  unfold push
  split
  · exact List.Sublist.refl _
  · exact List.filter_sublist

theorem push_of_waiting (h : q.isWaiting job.key = true) : q.push job = q := if_pos h

theorem push_of_absent (absent : q.isWaiting job.key = false) : q.push job =
    { q with
      nextSequence := q.nextSequence + 1
      waiting := q.waiting ++ [⟨q.nextSequence, job⟩]
      leased := q.leased.filter fun held => held.entry.job.key != job.key } :=
  if_neg (Bool.not_eq_true _ ▸ absent)

theorem isWaiting_push (q : Queue) (job : Job) : (q.push job).isWaiting job.key = true := by
  unfold push
  split
  · assumption
  · simp [isWaiting]

theorem isWaiting_push_of_waiting {key : Job.Key} (h : q.isWaiting key = true) (job : Job) :
    (q.push job).isWaiting key = true := by
  unfold push
  split
  · exact h
  · simp only [isWaiting, List.any_append, Bool.or_eq_true]
    exact .inl h

theorem available_push (q : Queue) (job : Job) : (q.push job).available = q.available := by
  unfold push
  split
  · rfl
  · rfl

theorem available_tryLease (q : Queue) (now : Instant) (leaseFor : Duration) (token : Uuid) :
    (q.tryLease now leaseFor token).2.available = q.available := by
  unfold tryLease
  simp only []
  split
  · rfl
  · split
    · rfl
    · rfl

theorem mem_keys_push : key ∈ (q.push job).keys ↔ key = job.key ∨ key ∈ q.keys := by
  unfold push
  split
  · rename_i waiting
    have known := mem_keys_of_waiting waiting
    exact ⟨.inr, fun given => given.elim (fun same => same ▸ known) fun old => old⟩
  · simp only [keys_eq, List.map_append, List.map_cons, List.map_nil, List.mem_append,
      List.mem_map, List.mem_filter, List.mem_singleton, bne_iff_ne]
    constructor
    · rintro ((waits | new) | ⟨held, ⟨mem, _⟩, same⟩)
      · exact .inr (.inl waits)
      · exact .inl new
      · exact .inr (.inr ⟨held, mem, same⟩)
    · rintro (new | waits | ⟨held, mem, same⟩)
      · exact .inl (.inr new)
      · exact .inl (.inl waits)
      · by_cases new : held.entry.job.key = job.key
        · exact .inl (.inr (same.symm.trans new))
        · exact .inr ⟨held, ⟨mem, new⟩, same⟩

theorem nodup_keys_push (h : q.keys.Nodup) : (q.push job).keys.Nodup := by
  unfold push
  split
  · exact h
  · rename_i absent
    rw [keys_eq] at h ⊢
    obtain ⟨waiting, leased, apart⟩ := List.nodup_append.mp h
    have fresh : job.key ∉ q.waiting.map fun e => e.job.key := by
      intro mem
      obtain ⟨e, mem, same⟩ := List.mem_map.mp mem
      exact absent (List.any_eq_true.mpr ⟨e, mem, beq_iff_eq.mpr same⟩)
    have kept : (q.leased.filter fun held => held.entry.job.key != job.key).Sublist q.leased :=
      List.filter_sublist
    simp only [List.map_append, List.map_cons, List.map_nil]
    refine List.nodup_append.mpr ⟨List.nodup_append.mpr ⟨waiting, by simp, ?_⟩,
      leased.sublist (kept.map _), ?_⟩
    · intro a mem b new
      obtain rfl := List.mem_singleton.mp new
      exact fun same => fresh (same ▸ mem)
    · intro a mem b old
      rcases List.mem_append.mp mem with waits | new
      · exact apart a waits b ((kept.map _).subset old)
      · obtain rfl := List.mem_singleton.mp new
        obtain ⟨held, mem, rfl⟩ := List.mem_map.mp old
        exact fun same => bne_iff_ne.mp (List.mem_filter.mp mem).2 same.symm

theorem perm_cons_filter {α β : Type} [BEq β] [LawfulBEq β] (f : α → β) {a : α} {l : List α}
    (h : (l.map f).Nodup) (mem : a ∈ l) : l.Perm (a :: l.filter fun b => f b != f a) := by
  induction l with
  | nil => cases mem
  | cons x rest ih =>
      obtain ⟨fresh, rest_nodup⟩ := List.nodup_cons.mp h
      rcases List.mem_cons.mp mem with rfl | later
      · have kept : rest.filter (fun b => f b != f a) = rest := by
          refine List.filter_eq_self.mpr fun b mem => bne_iff_ne.mpr fun same => fresh ?_
          exact List.mem_map.mpr ⟨b, mem, same⟩
        simp [kept]
      · have other : f x ≠ f a := fun same => fresh (List.mem_map.mpr ⟨a, later, same.symm⟩)
        have keeps : (x :: rest).filter (fun b => f b != f a) =
            x :: rest.filter fun b => f b != f a := List.filter_cons_of_pos (bne_iff_ne.mpr other)
        rw [keeps]
        exact ((ih rest_nodup later).cons x).trans (.swap a x _)

theorem liveJobs_release (h : q.tokens.Nodup) (mem : held ∈ q.leased) :
    q.liveJobs.Perm (held.entry.job ::
      liveJobs { q with leased := q.leased.filter fun other => other.token != held.token }) := by
  have rest := (perm_cons_filter Held.token h mem).map fun held => held.entry.job
  exact (rest.append_left _).trans List.perm_middle

theorem entries_reclaim (q : Queue) (now : Instant) : (q.reclaim now).entries.Perm q.entries := by
  have parted := (List.filter_append_perm (fun held => decide (held.expiresAt ≤ now)) q.leased).map
    Held.entry
  simp only [entries, reclaim, expired, List.map_append, List.append_assoc] at parted ⊢
  exact parted.append_left _

theorem liveJobs_reclaim (q : Queue) (now : Instant) :
    (q.reclaim now).liveJobs.Perm q.liveJobs := by
  rw [liveJobs_eq, liveJobs_eq]
  exact (entries_reclaim q now).map Entry.job

theorem mem_of_firstOf {l : List Entry} (h : firstOf l = some entry) : entry ∈ l := by
  induction l generalizing entry with
  | nil => cases h
  | cons e rest ih =>
      simp only [firstOf] at h
      split at h
      · cases h
        exact List.mem_cons_self
      · rename_i best found
        split at h
        · cases h
          exact List.mem_cons_self
        · cases h
          exact List.mem_cons_of_mem e (ih found)

theorem mem_of_nextVisible (h : q.nextVisible now = some entry) :
    entry ∈ q.waiting ∧ entry.job.visibleAt ≤ now := by
  obtain ⟨mem, visible⟩ := List.mem_filter.mp (mem_of_firstOf h)
  exact ⟨mem, of_decide_eq_true visible⟩

theorem tryLease_tried (q : Queue) (now : Instant) (leaseFor : Duration) (token : Uuid) :
    Tried q now leaseFor token (q.tryLease now leaseFor token).1
      (q.tryLease now leaseFor token).2 := by
  unfold tryLease
  simp only []
  cases next : (q.reclaim now).nextVisible now with
  | none => exact .nothing next
  | some entry =>
      cases ends : now.add? leaseFor with
      | none => exact .outOfRange next ends
      | some expiresAt => exact .leased next ends

/-- A try at a lease is out of range exactly if there is a job to lease and no date for its end. -/
theorem tryLease_outOfRange_iff : (q.tryLease now leaseFor token).1 = .outOfRange ↔
    ((q.reclaim now).nextVisible now).isSome ∧ now.add? leaseFor = none := by
  unfold tryLease
  simp only []
  cases (q.reclaim now).nextVisible now with
  | none => simp
  | some entry => cases now.add? leaseFor <;> simp

/-- A job that is taken off the waiting list and held is as live as before. -/
theorem entries_take (h : entry ∈ q.waiting) (token : Uuid) (expiresAt : Instant) :
    (entries { q with
      waiting := q.waiting.erase entry
      leased := q.leased ++ [⟨token, entry, expiresAt⟩] }).Perm q.entries := by
  simp only [entries, List.map_append, List.map_cons, List.map_nil]
  rw [← List.append_assoc]
  exact (List.perm_append_singleton _ _).trans ((List.perm_cons_erase h).append_right _).symm

/-- What one try at leasing a job does to the live jobs and to those held. -/
theorem tryLease_spec (q : Queue) (now : Instant) (leaseFor : Duration) (token : Uuid) :
    match q.tryLease now leaseFor token with
    | (.nothing, after) => after.liveJobs.Perm q.liveJobs ∧ after.leased.Sublist q.leased
    | (.leased lease, after) => after.liveJobs.Perm q.liveJobs ∧ ∃ entry kept,
        kept.Sublist q.leased ∧ after.leased = kept ++ [⟨token, entry, lease.expiresAt⟩] ∧
        (q.reclaim now).nextVisible now = some entry ∧ lease.job = entry.job ∧ lease.token = token
    | (.outOfRange, after) => after.leased.Sublist q.leased ∧ ∃ entry,
        (q.reclaim now).nextVisible now = some entry ∧
        q.liveJobs.Perm (entry.job :: after.liveJobs) := by
  have kept : (q.reclaim now).leased.Sublist q.leased := List.filter_sublist
  have same := liveJobs_reclaim q now
  have tried := tryLease_tried q now leaseFor token
  revert tried
  generalize q.tryLease now leaseFor token = tried
  obtain ⟨attempt, after⟩ := tried
  intro tried
  cases tried with
  | nothing => exact ⟨same, kept⟩
  | leased next =>
      have taken := entries_take (mem_of_nextVisible next).1
      refine ⟨List.Perm.trans ?_ same, _, _, kept, rfl, next, rfl, rfl⟩
      rw [liveJobs_eq, liveJobs_eq]
      exact (taken _ _).map Entry.job
  | outOfRange next =>
      have taken := (List.perm_cons_erase (mem_of_nextVisible next).1).map Entry.job
      exact ⟨kept, _, next, same.symm.trans (taken.append_right _)⟩

theorem liveJobs_tryLease (q : Queue) (now : Instant) (leaseFor : Duration) (token : Uuid) :
    (q.tryLease now leaseFor token).2.liveJobs.Subperm q.liveJobs := by
  have spec := tryLease_spec q now leaseFor token
  split at spec
  · rename_i tried
    rw [tried]
    exact spec.1.subperm
  · rename_i tried
    rw [tried]
    exact spec.1.subperm
  · rename_i tried
    rw [tried]
    obtain ⟨_, entry, _, taken⟩ := spec
    exact (List.sublist_cons_self _ _).subperm.trans taken.symm.subperm

theorem visible_of_tryLease (tried : q.tryLease now leaseFor token = (.leased lease, after)) :
    lease.job ∈ q.liveJobs ∧ lease.job.visibleAt ≤ now := by
  have spec := tryLease_spec q now leaseFor token
  rw [tried] at spec
  obtain ⟨_, entry, _, _, _, next, job, _⟩ := spec
  obtain ⟨waiting, visible⟩ := mem_of_nextVisible next
  rw [job]
  refine ⟨(liveJobs_reclaim q now).subset ?_, visible⟩
  exact List.mem_append_left _ (List.mem_map.mpr ⟨entry, waiting, rfl⟩)

theorem liveJobs_filter (q : Queue) (p : Held → Bool) :
    (liveJobs { q with leased := q.leased.filter p }).Sublist q.liveJobs :=
  (List.Sublist.refl _).append (List.filter_sublist.map _)

theorem nodup_map_of_subperm {α β : Type} {f : α → β} {l less : List α} (h : (l.map f).Nodup)
    (sub : less.Subperm l) : (less.map f).Nodup := by
  obtain ⟨kept, same, sublist⟩ := sub
  exact (same.map f).nodup_iff.mp (h.sublist (sublist.map f))

theorem mem_entries_push (mem : entry ∈ (q.push job).entries) :
    entry = ⟨q.nextSequence, job⟩ ∨ entry ∈ q.entries := by
  unfold push at mem
  split at mem
  · exact .inr mem
  · rcases List.mem_append.mp mem with waits | held
    · rcases List.mem_append.mp waits with old | new
      · exact .inr (List.mem_append_left _ old)
      · exact .inl (List.mem_singleton.mp new)
    · exact .inr (List.mem_append_right _ ((List.filter_sublist.map Held.entry).subset held))

theorem liveJobs_push {other : Job} (h : other ∈ (q.push job).liveJobs) :
    other = job ∨ other ∈ q.liveJobs := by
  rw [liveJobs_eq] at h ⊢
  obtain ⟨e, mem, rfl⟩ := List.mem_map.mp h
  rcases mem_entries_push mem with rfl | old
  · exact .inl rfl
  · exact .inr (List.mem_map.mpr ⟨e, old, rfl⟩)

theorem eq_or_waiting_of_push {other : Job} (h : q.keys.Nodup)
    (live : other ∈ (q.push job).liveJobs) (same : other.key = job.key) :
    other = job ∨ ∃ e ∈ q.waiting, e.job = other := by
  unfold push at live
  split at live
  · rename_i waiting
    obtain ⟨e, mem, waits⟩ := List.any_eq_true.mp waiting
    have known : e.job ∈ q.liveJobs := List.mem_append_left _ (List.mem_map.mpr ⟨e, mem, rfl⟩)
    have alike : e.job.key = other.key := (eq_of_beq waits).trans same.symm
    exact .inr ⟨e, mem, List.inj_on_of_nodup_map h known live alike⟩
  · simp only [liveJobs, List.map_append, List.map_cons, List.map_nil, List.mem_append,
      List.mem_map, List.mem_singleton, List.mem_filter] at live
    rcases live with (⟨e, mem, rfl⟩ | new) | ⟨held, ⟨_, kept⟩, rfl⟩
    · exact .inr ⟨e, mem, rfl⟩
    · exact .inl new
    · exact absurd same (bne_iff_ne.mp kept)

end Courier.Queue
