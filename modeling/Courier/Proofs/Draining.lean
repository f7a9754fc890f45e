import Courier.Proofs.Conservation

namespace Courier.Queue

def Entry.Before (a b : Entry) : Prop :=
  a.job.visibleAt < b.job.visibleAt ∨ a.job.visibleAt = b.job.visibleAt ∧ a.sequence < b.sequence

/-- The entries of the jobs that wait or whose lease has run out, and that are visible, in the order
in which they go out. -/
structure Due (q : Queue) (now : Instant) (due : List Entry) : Prop where
  mem : ∀ e, e ∈ due ↔ e.job.visibleAt ≤ now ∧
    (e ∈ q.waiting ∨ ∃ held ∈ q.leased, held.entry = e ∧ held.expiresAt ≤ now)
  ascending : due.Pairwise Entry.Before

/-- The answers to callers that ask one after another, while these are the jobs that are due. -/
def handedOut (expiresAt : Instant) : List Entry → List Uuid → List Answer
  | _, [] => []
  | [], _ :: tokens => .tried .nothing :: handedOut expiresAt [] tokens
  | e :: due, token :: tokens =>
    .tried (.leased ⟨e.job, token, expiresAt⟩) :: handedOut expiresAt due tokens

variable {q after : Queue} {now expiresAt : Instant} {leaseFor : Duration} {token : Uuid}
  {a b c e : Entry} {l due : List Entry} {history : History}

theorem precedes_iff : a.precedes b = true ↔ a.job.visibleAt.key < b.job.visibleAt.key ∨
    a.job.visibleAt.key = b.job.visibleAt.key ∧ a.sequence ≤ b.sequence := by
  have same : a.job.visibleAt = b.job.visibleAt ↔ a.job.visibleAt.key = b.job.visibleAt.key :=
    ⟨congrArg _, Instant.key_injective⟩
  simp [Entry.precedes, same]
  rfl

theorem before_iff : a.Before b ↔ a.job.visibleAt.key < b.job.visibleAt.key ∨
    a.job.visibleAt.key = b.job.visibleAt.key ∧ a.sequence < b.sequence := by
  have same : a.job.visibleAt = b.job.visibleAt ↔ a.job.visibleAt.key = b.job.visibleAt.key :=
    ⟨congrArg _, Instant.key_injective⟩
  rw [Entry.Before, same]
  rfl

theorem precedes_refl (a : Entry) : a.precedes a = true := by
  rw [precedes_iff]
  omega

theorem precedes_trans (first : a.precedes b = true) (second : b.precedes c = true) :
    a.precedes c = true := by
  rw [precedes_iff] at *
  omega

theorem precedes_of_not (later : ¬a.precedes b = true) : b.precedes a = true := by
  rw [precedes_iff] at *
  omega

theorem precedes_total (a b : Entry) : (a.precedes b || b.precedes a) = true := by
  rw [Bool.or_eq_true, precedes_iff, precedes_iff]
  omega

theorem before_of_precedes (first : a.precedes b = true) (apart : a.sequence ≠ b.sequence) :
    a.Before b := by
  rw [precedes_iff] at first
  rw [before_iff]
  omega

theorem not_before_of_precedes (first : a.precedes b = true) : ¬b.Before a := by
  rw [precedes_iff] at first
  rw [before_iff]
  omega

theorem firstOf_ne_none (mem : b ∈ l) : firstOf l ≠ none := by
  cases l with
  | nil => cases mem
  | cons x rest =>
      simp only [firstOf]
      split
      · exact Option.some_ne_none _
      · split
        · exact Option.some_ne_none _
        · exact Option.some_ne_none _

theorem precedes_of_firstOf (first : firstOf l = some e) (mem : b ∈ l) : e.precedes b = true := by
  induction l generalizing e with
  | nil => cases mem
  | cons x rest ih =>
      cases best : firstOf rest with
      | none =>
          simp only [firstOf, best] at first
          cases first
          cases mem with
          | head => exact precedes_refl _
          | tail _ mem => exact absurd best (firstOf_ne_none mem)
      | some y =>
          simp only [firstOf, best] at first
          split at first
          · rename_i earlier
            cases first
            cases mem with
            | head => exact precedes_refl _
            | tail _ mem => exact precedes_trans earlier (ih best mem)
          · rename_i later
            cases first
            cases mem with
            | head => exact precedes_of_not later
            | tail _ mem => exact ih best mem

theorem mem_waiting_reclaim : e ∈ (q.reclaim now).waiting ↔
    e ∈ q.waiting ∨ ∃ held ∈ q.leased, held.entry = e ∧ held.expiresAt ≤ now := by
  simp only [reclaim, expired, List.mem_append, List.mem_map, List.mem_filter, decide_eq_true_eq]
  refine or_congr_right ⟨?_, ?_⟩
  · rintro ⟨held, ⟨mem, expired⟩, same⟩
    exact ⟨held, mem, same, expired⟩
  · rintro ⟨held, mem, same, expired⟩
    exact ⟨held, ⟨mem, expired⟩, same⟩

theorem Due.mem_iff (h : Due q now due) :
    e ∈ due ↔ e ∈ (q.reclaim now).waiting.filter fun e => e.job.visibleAt ≤ now := by
  rw [h.mem, List.mem_filter, mem_waiting_reclaim, decide_eq_true_eq, and_comm]

theorem Due.rearranged (h : Due q now due) (same : Rearranged q after) : Due after now due where
  mem e := by simp only [h.mem, same.waiting.mem_iff, same.leased.mem_iff]
  ascending := h.ascending

theorem Due.nodup (h : Due q now due) : due.Nodup := by
  refine h.ascending.imp fun {a b} first same => ?_
  subst same
  exact not_before_of_precedes (precedes_refl a) first

theorem due_of_waiting (unexpired : ∀ held ∈ q.leased, now < held.expiresAt)
    (mem : ∀ e, e ∈ due ↔ e ∈ q.waiting ∧ e.job.visibleAt ≤ now)
    (ascending : due.Pairwise Entry.Before) : Due q now due where
  mem e := by
    rw [mem, and_comm]
    refine and_congr_right' (or_iff_left ?_).symm
    rintro ⟨held, mem, _, expired⟩
    exact absurd (unexpired held mem) (Int.not_lt.mpr expired)
  ascending := ascending

theorem unexpired_reclaim : ∀ held ∈ (q.reclaim now).leased, now < held.expiresAt := by
  intro held mem
  have kept := (List.mem_filter.mp mem).2
  rw [Bool.not_eq_true', decide_eq_false_iff_not] at kept
  exact Int.not_le.mp kept

theorem nodup_places_reclaim (places : (q.entries.map Entry.sequence).Nodup) :
    ((q.reclaim now).waiting.map Entry.sequence).Nodup := by
  have same := (entries_reclaim q now).map Entry.sequence
  rw [entries, List.map_append] at same
  exact (List.nodup_append.mp (same.nodup_iff.mpr places)).1

theorem exists_ascending (places : (l.map Entry.sequence).Nodup) :
    ∃ due : List Entry, (∀ e, e ∈ due ↔ e ∈ l) ∧ due.Pairwise Entry.Before := by
  have sorted : (l.mergeSort Entry.precedes).Pairwise fun a b => a.precedes b = true :=
    @List.pairwise_mergeSort Entry Entry.precedes (fun _ _ _ => precedes_trans) precedes_total l
  have nodup : ((l.mergeSort Entry.precedes).map Entry.sequence).Nodup :=
    ((List.mergeSort_perm l Entry.precedes).map Entry.sequence).nodup_iff.mpr places
  have apart := List.pairwise_map.mp nodup
  exact ⟨l.mergeSort Entry.precedes, fun e => List.mem_mergeSort,
    (sorted.and apart).imp fun both => before_of_precedes both.1 both.2⟩

theorem exists_due (places : (q.entries.map Entry.sequence).Nodup) : ∃ due, Due q now due := by
  have visible : ((q.reclaim now).waiting.filter fun e => e.job.visibleAt ≤ now).Sublist
      (q.reclaim now).waiting := List.filter_sublist
  obtain ⟨due, mem, ascending⟩ :=
    exists_ascending ((nodup_places_reclaim places).sublist (visible.map Entry.sequence))
  refine ⟨due, fun e => ?_, ascending⟩
  rw [mem, List.mem_filter, mem_waiting_reclaim, decide_eq_true_eq, and_comm]

theorem Due.of_next (h : Due q now due) (next : (q.reclaim now).nextVisible now = some e) :
    e ∈ due ∧ ∀ b ∈ due, ¬b.Before e :=
  ⟨h.mem_iff.mpr (mem_of_firstOf next), fun _ mem =>
    not_before_of_precedes (precedes_of_firstOf next (h.mem_iff.mp mem))⟩

theorem Due.nothing (h : Due q now []) (up : q.available = true) {answer : Answer}
    (served : Served q (.lease now leaseFor token) answer after) :
    answer = .tried .nothing ∧ Due after now [] := by
  have none {e : Entry} (next : (q.reclaim now).nextVisible now = some e) : False :=
    List.not_mem_nil (h.of_next next).1
  cases served with
  | refused down => cases down.symm.trans up
  | tried tried =>
      cases tried with
      | nothing =>
          refine ⟨rfl, due_of_waiting unexpired_reclaim (fun e => ?_) .nil⟩
          rw [h.mem_iff, List.mem_filter, decide_eq_true_eq]
      | leased next => exact (none next).elim
      | outOfRange next => exact (none next).elim

theorem Due.eq_of_next (h : Due q now (e :: due))
    (next : (q.reclaim now).nextVisible now = some b) :
    b = e := by
  obtain ⟨mem, first⟩ := h.of_next next
  rcases List.mem_cons.mp mem with same | mem
  · exact same
  · exact absurd ((List.pairwise_cons.mp h.ascending).1 b mem) (first e List.mem_cons_self)

theorem Due.rest (h : Due q now (e :: due)) (places : (q.entries.map Entry.sequence).Nodup)
    (waiting : after.waiting.Perm ((q.reclaim now).waiting.erase e))
    (unexpired : ∀ held ∈ after.leased, now < held.expiresAt) : Due after now due := by
  obtain ⟨_, ascending⟩ := List.pairwise_cons.mp h.ascending
  obtain ⟨fresh, _⟩ := List.nodup_cons.mp h.nodup
  refine due_of_waiting unexpired (fun x => ?_) ascending
  have rest : x ∈ due ↔ x ≠ e ∧ x ∈ e :: due :=
    ⟨fun mem => ⟨fun same => fresh (same ▸ mem), List.mem_cons_of_mem _ mem⟩,
      fun both => (List.mem_cons.mp both.2).resolve_left both.1⟩
  rw [rest, h.mem_iff, List.mem_filter, decide_eq_true_eq, waiting.mem_iff,
    (nodup_places_reclaim places).of_map.mem_erase_iff, and_assoc]

/-- A caller that asks is given the first of the jobs that are due, if there is an end for the
lease. -/
theorem Due.granted (h : Due q now (e :: due)) (up : q.available = true)
    (ends : now.add? leaseFor = some expiresAt) {answer : Answer}
    (served : Served q (.lease now leaseFor token) answer after) :
    answer = .tried (.leased ⟨e.job, token, expiresAt⟩) ∧ after =
      { q.reclaim now with
        waiting := (q.reclaim now).waiting.erase e
        leased := (q.reclaim now).leased ++ [⟨token, e, expiresAt⟩] } := by
  cases served with
  | refused down => cases down.symm.trans up
  | tried tried =>
      cases tried with
      | nothing none =>
          exact absurd none (firstOf_ne_none (h.mem_iff.mp List.mem_cons_self))
      | outOfRange _ beyond => cases beyond.symm.trans ends
      | leased next ends' =>
          obtain rfl := h.eq_of_next next
          cases ends'.symm.trans ends
          exact ⟨rfl, rfl⟩

/-- A caller that asks is given the first of the jobs that are due, and the others are left. -/
theorem Due.first (h : Due q now (e :: due)) (up : q.available = true)
    (places : (q.entries.map Entry.sequence).Nodup) (ends : now.add? leaseFor = some expiresAt)
    (later : now < expiresAt) {answer : Answer}
    (served : Served q (.lease now leaseFor token) answer after) :
    answer = .tried (.leased ⟨e.job, token, expiresAt⟩) ∧ Due after now due := by
  obtain ⟨answered, rfl⟩ := h.granted up ends served
  refine ⟨answered, h.rest places (.refl _) fun held mem => ?_⟩
  rcases List.mem_append.mp mem with mem | new
  · exact unexpired_reclaim held mem
  · rw [List.mem_singleton.mp new]
    exact later

theorem Served.leasing {answer : Answer}
    (served : Served q (.lease now leaseFor token) answer after) :
    after.available = q.available ∧ after.entries.Subperm q.entries := by
  refine ⟨?_, (served.less rfl).1⟩
  cases served with
  | refused => rfl
  | tried tried =>
      cases tried with
      | nothing | leased | outOfRange => rfl

/-- Callers that ask one after another at one reading of the clock are given what is due, one job
each, and then nothing. -/
theorem Due.drained (h : Due q now due) (up : q.available = true)
    (places : (q.entries.map Entry.sequence).Nodup) (ends : now.add? leaseFor = some expiresAt)
    (later : now < expiresAt) {tokens : List Uuid} {drained : History} (runs : Runs q drained after)
    (asked : drained.map Exchange.access = tokens.map (Access.lease now leaseFor)) :
    drained.map Exchange.answer = handedOut expiresAt due tokens := by
  induction tokens generalizing q due drained with
  | nil =>
      obtain rfl := List.map_eq_nil_iff.mp asked
      cases due <;> rfl
  | cons token tokens ih =>
      obtain ⟨exchange, rest, rfl, access, asked⟩ := List.map_eq_cons_iff.mp asked
      obtain ⟨mid, left, same, served, runs⟩ := runs.uncons
      rw [access] at served
      have served := served_of_serve served
      have due_mid := h.rearranged same
      have up_mid := same.available.trans up
      have places_mid := (same.entries.map Entry.sequence).nodup_iff.mpr places
      obtain ⟨available, less⟩ := served.leasing
      have up_left := available.trans up_mid
      have places_left := nodup_map_of_subperm places_mid less
      rw [List.map_cons]
      cases due with
      | nil =>
          obtain ⟨answer, due_left⟩ := due_mid.nothing up_mid served
          rw [answer, ih due_left up_left places_left runs asked]
          rfl
      | cons e due =>
          obtain ⟨answer, due_left⟩ := due_mid.first up_mid places_mid ends later served
          rw [answer, ih due_left up_left places_left runs asked]
          rfl

/-- The jobs that are due are handed out, each once and each at the place at which it came, and then
nothing is. -/
theorem drained_in_order (runs : Runs empty history q) (up : q.available = true)
    (positive : 0 < leaseFor.nanos) (ends : now.add? leaseFor = some expiresAt) :
    ∃ due, Due q now due ∧ (∀ e ∈ due, history.arrivals[e.sequence]? = some e.job) ∧
      ∀ tokens drained after, Runs q drained after →
        drained.map Exchange.access = tokens.map (Access.lease now leaseFor) →
          drained.map Exchange.answer = handedOut expiresAt due tokens := by
  have kept := kept_of_runs runs
  obtain ⟨due, isDue⟩ := exists_due kept.nodup_sequences
  refine ⟨due, isDue, fun e mem => kept.arrived e ?_, fun tokens drained after runs asked => ?_⟩
  · have waiting := List.mem_of_mem_filter (isDue.mem_iff.mp mem)
    exact (entries_reclaim q now).subset (List.mem_append_left _ waiting)
  · exact isDue.drained up kept.nodup_sequences ends (Instant.lt_of_add? positive ends) runs asked

namespace Sample

def jobAt (id : BitVec 128) (visible : Int) : Job := ⟨⟨id⟩, 0, .ofSecond 0, .ofSecond visible⟩

/-- Of four jobs, two have been leased. At second 63 the lease of one of them has just run out, and
the last job cannot be seen yet. -/
def backlog : History :=
  [⟨.enqueue (jobAt 1 5), .enqueued true⟩,
    ⟨.enqueue (jobAt 2 3), .enqueued true⟩,
    ⟨.enqueue (jobAt 3 3), .enqueued true⟩,
    ⟨.enqueue (jobAt 4 100), .enqueued true⟩,
    ⟨tryAt 3 10, .tried (.leased ⟨jobAt 2 3, ⟨10⟩, .ofSecond 63⟩)⟩,
    ⟨tryAt 5 11, .tried (.leased ⟨jobAt 3 3, ⟨11⟩, .ofSecond 65⟩)⟩]

end Sample

/-- What is due at second 63 is handed out in order, with the job whose lease has just run out among
it. -/
theorem drained_after_expiry : ∃ q, Runs empty Sample.backlog q ∧ q.available = true ∧
    0 < (Duration.ofSeconds 60).nanos ∧
    (Instant.ofSecond 63).add? (.ofSeconds 60) = some (.ofSecond 123) ∧
    ∃ due, Due q (.ofSecond 63) due ∧
      (∀ e ∈ due, Sample.backlog.arrivals[e.sequence]? = some e.job) ∧
      ∀ tokens drained after, Runs q drained after →
        drained.map Exchange.access =
          tokens.map (Access.lease (.ofSecond 63) (.ofSeconds 60)) →
          drained.map Exchange.answer = handedOut (.ofSecond 123) due tokens := by
  have replayed : ∃ q, empty.replay (Sample.backlog.map Exchange.access) = (Sample.backlog, q) ∧
      q.available = true := ⟨_, rfl, rfl⟩
  obtain ⟨q, replayed, up⟩ := replayed
  have runs : Runs empty Sample.backlog q := runs_of_replay replayed
  have positive : 0 < (Duration.ofSeconds 60).nanos := by decide
  have ends : (Instant.ofSecond 63).add? (.ofSeconds 60) = some (.ofSecond 123) := rfl
  exact ⟨q, runs, up, positive, ends, drained_in_order runs up positive ends⟩

end Courier.Queue
