import Courier.Proofs.Paging
import Courier.Proofs.Serving

namespace Courier

open Prog

/-- A table of records: no two have the same identifier, and there are no more than 64 bits can
number. -/
structure Store.IsTable (s : Store) : Prop where
  once : s.ids.Nodup
  countable : s.records.length < Width.limit64

/-- Between two requests the records may be put in another order, and the queue and the clock may
change. Nobody writes to the store. -/
def Surroundings.unwritten : Surroundings :=
  ⟨fun b b' => b.store.Rearranged b'.store, fun _ _ _ => True⟩

/-- There is a course on which the program comes to an end, and on every course that ends it has
such a result. -/
def Prog.Yields {α : Type} (w : Surroundings) (P : α → Prop) (p : Prog α) (b : Backend) : Prop :=
  (∃ a conv b', p.Goes w b conv (.done a) b') ∧
    p.Meets w (fun _ => True) (fun result _ _ => ∃ a, result = some a ∧ P a) b

namespace Recovery

variable {s : Store} {b : Backend} {n : Notification} {records : List Notification}

def countOf (status : Status) (records : List Notification) : Nat :=
  records.countP fun n => n.status = status

namespace Breakdown

def counting (records : List Notification) : Breakdown :=
  ⟨countOf .pending records, countOf .queued records, countOf .sent records,
    countOf .failed records⟩

def total (b : Breakdown) : Nat := b.pending + b.queued + b.sent + b.failed

theorem total_add (b : Breakdown) (status : Status) : (b.add status).total = b.total + 1 := by
  cases status <;> simp only [add, total] <;> omega

theorem counting_snoc (records : List Notification) (n : Notification) :
    counting (records ++ [n]) = (counting records).add n.status := by
  cases status : n.status <;> simp [counting, countOf, add, status]

theorem counting_of_perm {records' : List Notification} (perm : records.Perm records') :
    counting records = counting records' := by
  simp only [counting, countOf, perm.countP_eq]

theorem ofRecords_eq (records : List Notification) : ofRecords records = counting records := by
  induction records using List.reverseRecOn with
  | nil => rfl
  | append_singleton rest last ih =>
      rw [counting_snoc, ← ih, ofRecords, List.foldl_append]
      rfl

end Breakdown

theorem Tally.total_cons (name : String) (count : Nat) (rest : Tally) :
    Tally.total ((name, count) :: rest) = count + Tally.total rest := by
  have shift (start : Nat) : rest.foldl (fun sum entry => sum + entry.2) start =
      start + rest.foldl (fun sum entry => sum + entry.2) 0 := by
    induction rest generalizing start with
    | nil => rfl
    | cons first rest ih =>
        rw [List.foldl_cons, List.foldl_cons, ih, ih (0 + first.2)]
        omega
  rw [Tally.total, List.foldl_cons, shift, Nat.zero_add]
  rfl

/-- The part of a tally that some names have. -/
def Tally.part (names : String → Bool) (t : Tally) : Tally := t.filter fun entry => names entry.1

/-- The count under a name, which is zero if the name has not been counted. -/
def Tally.of (name : String) (t : Tally) : Nat := (t.part (· = name)).total

/-- Counting a name raises the total of whatever part it belongs to by one, whether the name has
been counted before or not. -/
theorem Tally.total_part_count (names : String → Bool) (name : String) (t : Tally) :
    ((t.count name).part names).total = (t.part names).total + if names name then 1 else 0 := by
  induction t with
  | nil =>
      simp only [count, part, List.filter_cons]
      split <;> rfl
  | cons entry rest ih =>
      obtain ⟨other, count⟩ := entry
      simp only [part] at ih
      simp only [part, Tally.count]
      split
      · subst other
        simp only [List.filter_cons]
        split
        · simp only [total_cons]
          omega
        · rfl
      · split
        · generalize (other, count) :: rest = after
          rw [List.filter_cons]
          split
          · simp only [total_cons]
            omega
          · rfl
        · simp only [List.filter_cons]
          split
          · simp only [total_cons, ih]
            omega
          · exact ih

theorem Tally.total_count (name : String) (t : Tally) : (t.count name).total = t.total + 1 := by
  have whole (t : Tally) : t.part (fun _ => true) = t := List.filter_eq_self.mpr fun _ _ => rfl
  have counted := t.total_part_count (fun _ => true) name
  rwa [whole, whole] at counted

/-- The report counts each of the records once: by status, by channel, and the failed ones by the
category of their failure. -/
structure Statistics.Covers (report : Statistics) (records : List Notification) : Prop where
  total : report.total = records.length
  statuses : report.statuses = .counting records
  statusesTotal : report.statuses.total = records.length
  channels : ∀ name, report.channels.of name = records.countP fun n => n.channel.name = name
  channelsTotal : report.channels.total = records.length
  failures : report.failures = countOf .failed records
  exhausted : report.exhausted = report.failures
  categories : ∀ name, report.categories.of name =
    records.countP fun n => n.status = .failed ∧ category n.errorMessage = name
  categoriesTotal : report.categories.total = report.failures

namespace Statistics

variable {report : Statistics}

/-- What one more record adds to the counts of a report. -/
structure Counted (n : Notification) (before after : Statistics) : Prop where
  total : after.total = before.total + 1
  statuses : after.statuses = before.statuses.add n.status
  channels : after.channels = Tally.count n.channel.name before.channels
  failures : after.failures = before.failures + if n.status = .failed then 1 else 0
  exhausted : after.exhausted = before.exhausted + if n.status = .failed then 1 else 0
  categories : after.categories =
    if n.status = .failed then Tally.count (category n.errorMessage) before.categories
    else before.categories

theorem addSent_counted {before : Statistics} (counted : Counted n before report) :
    Counted n before (report.addSent n) := by
  unfold addSent
  split <;> split <;>
    exact ⟨counted.total, counted.statuses, counted.channels, counted.failures, counted.exhausted,
      counted.categories⟩

theorem add_counted (report : Statistics) (n : Notification) : Counted n report (report.add n) := by
  unfold add
  simp only []
  split
  case h_3 sent =>
    apply addSent_counted
    constructor <;> simp [sent]
  all_goals
    rename_i status
    constructor <;> simp [status, addFailed]

theorem covers_nil : Covers {} [] :=
  ⟨rfl, rfl, rfl, fun _ => rfl, rfl, rfl, rfl, fun _ => rfl, rfl⟩

theorem Covers.snoc (h : report.Covers records) (n : Notification) :
    (report.add n).Covers (records ++ [n]) := by
  have counted := add_counted report n
  have size : (records ++ [n]).length = records.length + 1 := List.length_append
  have failed : countOf .failed (records ++ [n]) =
      countOf .failed records + if n.status = .failed then 1 else 0 := by
    simp only [countOf, List.countP_append, List.countP_singleton, decide_eq_true_eq]
  constructor
  case total => rw [counted.total, h.total, size]
  case statuses => rw [counted.statuses, h.statuses, Breakdown.counting_snoc]
  case statusesTotal => rw [counted.statuses, Breakdown.total_add, h.statusesTotal, size]
  case channels =>
    intro name
    have others := h.channels name
    rw [Tally.of] at others ⊢
    rw [counted.channels, Tally.total_part_count, others, List.countP_append, List.countP_singleton]
  case channelsTotal => rw [counted.channels, Tally.total_count, h.channelsTotal, size]
  case failures => rw [counted.failures, h.failures, failed]
  case exhausted => rw [counted.exhausted, counted.failures, h.exhausted]
  case categories =>
    intro name
    have others := h.categories name
    rw [counted.categories, List.countP_append, List.countP_singleton, ← others]
    split
    · rename_i failed
      simp only [Tally.of, Tally.total_part_count, failed, true_and]
    · rename_i other
      simp [other]
  case categoriesTotal =>
    rw [counted.categories, counted.failures, ← h.categoriesTotal]
    split
    · exact Tally.total_count _ _
    · rfl

theorem ofRecords_covers (records : List Notification) : (ofRecords records).Covers records := by
  induction records using List.reverseRecOn with
  | nil => exact covers_nil
  | append_singleton rest last ih =>
      have added := ih.snoc last
      rwa [ofRecords, List.foldl_append]

theorem Covers.of_perm {records' : List Notification} (h : report.Covers records)
    (perm : records.Perm records') : report.Covers records' where
  total := h.total.trans perm.length_eq
  statuses := h.statuses.trans (Breakdown.counting_of_perm perm)
  statusesTotal := h.statusesTotal.trans perm.length_eq
  channels name := (h.channels name).trans (perm.countP_eq _)
  channelsTotal := h.channelsTotal.trans perm.length_eq
  failures := h.failures.trans (perm.countP_eq _)
  exhausted := h.exhausted
  categories name := (h.categories name).trans (perm.countP_eq _)
  categoriesTotal := h.categoriesTotal

end Statistics

theorem scan_any (once : s.ids.Nodup) (up : s.available = true) (same : s.Rearranged b.store)
    (offset : Nat) :
    b.store.scan (Filter.any.paged offset pageSize) =
      .ok ((s.sorted.drop offset).take pageSize) := by
  have all : s.accepted .any = s.sorted := List.filter_eq_self.mpr fun _ _ => rfl
  rw [Store.scan_arranged once up same, all]

/-- A walk that has come to that offset folds what is left of the listing, page after page. -/
theorem foldStoreFrom_meets {σ : Type} {step : σ → Notification → σ} {pages : Nat} {state : σ}
    (once : s.ids.Nodup) (up : s.available = true) (same : s.Rearranged b.store) (offset : Nat)
    (enough : (s.records.length - offset) / pageSize < pages) :
    (foldStoreFrom step pages offset state).Meets .unwritten (fun _ => True)
      (fun result _ b => s.Rearranged b.store ∧
        result = some (.ok ((s.sorted.drop offset).foldl step state))) b := by
  induction pages generalizing offset state b with
  | zero => exact absurd enough (Nat.not_lt_zero _)
  | succ pages ih =>
      intro before c answer others _ answered
      have same : s.Rearranged before.store := same.trans others
      have read := scan_any once up same offset
      have size : s.sorted.length = s.records.length := s.sorted_perm.length_eq
      generalize cut : (s.sorted.drop offset).take pageSize = page at read
      have length : page.length = min pageSize (s.records.length - offset) := by
        rw [← cut, List.length_take, List.length_drop, size]
      have replied : answer.reply = .ok page ∧ answer.backend = before := by
        cases answered
        exact ⟨read, rfl⟩
      rw [replied.1, replied.2]
      refine ⟨trivial, ?_⟩
      show Meets _ _ _ (if page.length < pageSize then _ else _) _
      split
      · -- the last page holds all that is left
        rename_i short
        have whole : page = s.sorted.drop offset := by
          rw [← cut, List.take_of_length_le]
          rw [List.length_drop, size]
          omega
        rw [← whole]
        exact ⟨same, rfl⟩
      · rename_i full
        have left : pageSize ≤ s.records.length - offset := by omega
        have paged : page.length = pageSize := by omega
        have onward : s.sorted.drop offset = page ++ s.sorted.drop (offset + pageSize) := by
          rw [← cut, ← List.drop_drop, List.take_append_drop]
        rw [onward, List.foldl_append, paged]
        apply ih same (offset + pageSize)
        rw [Nat.div_eq_sub_div (by decide) left] at enough
        rw [Nat.sub_add_eq]
        omega

theorem foldStore_meets {σ : Type} (table : s.IsTable) (up : s.available = true)
    (same : s.Rearranged b.store) (step : σ → Notification → σ) (start : σ) :
    (foldStore step start).Meets .unwritten (fun _ => True)
      (fun result _ b => s.Rearranged b.store ∧
        result = some (.ok (s.sorted.foldl step start))) b := by
  refine foldStoreFrom_meets table.once up same 0 ?_
  exact Nat.lt_of_le_of_lt (Nat.div_le_self _ _) table.countable

/-- A report comes to its end, however the store and the queue fare. -/
theorem yields_of_meets {α : Type} {p : Prog α} {P : α → Prop}
    (only : p.Only fun r => (∃ filter, r = .scan filter) ∨ r = .depth)
    (meets : p.Meets .unwritten (fun _ => True) (fun result _ _ => ∃ a, result = some a ∧ P a) b) :
    p.Yields .unwritten P b := by
  refine ⟨?_, meets⟩
  have served : ∀ (b : Backend) (r : Request), ((∃ filter, r = .scan filter) ∨ r = .depth) →
      ∃ c step, Surroundings.unwritten.allows b c r ∧ b.answer c r = some step := by
    rintro b r (⟨filter, rfl⟩ | rfl)
    · exact ⟨⟨Uuid.ofNat 0, 0, none⟩, _, trivial, rfl⟩
    · exact ⟨⟨Uuid.ofNat 0, 0, none⟩, _, trivial, rfl⟩
  obtain ⟨conv, q, b', course, ended⟩ :=
    only.ends (fun b => Store.Rearranged.refl b.store) served meets
  rcases ended with ⟨a, rfl, _⟩ | ⟨_, a, broken, _⟩
  · exact ⟨a, conv, b', course⟩
  · cases broken

theorem retryStatus_yields (table : s.IsTable) (up : s.available = true)
    (same : s.Rearranged b.store) :
    retryStatus.Yields .unwritten (· = .ok
      ⟨countOf .failed s.records, countOf .queued s.records, countOf .pending s.records⟩) b := by
  apply yields_of_meets (retryStatus_only fun filter => .inl ⟨filter, rfl⟩)
  apply (foldStore_meets table up same _ _).bind
  · rintro _ _ ⟨_, broken⟩
    cases broken
  · rintro result _ _ ⟨_, folded⟩
    cases folded
    have counts : Breakdown.ofRecords s.sorted = .counting s.records :=
      (Breakdown.ofRecords_eq _).trans (Breakdown.counting_of_perm s.sorted_perm)
    exact ⟨_, rfl, by rw [← Breakdown.ofRecords, counts]; rfl⟩

theorem stats_yields (table : s.IsTable) (up : s.available = true) (same : s.Rearranged b.store) :
    stats.Yields .unwritten
      (fun result => ∃ report depth, result = .ok (report, depth) ∧ report.Covers s.records) b := by
  apply yields_of_meets (stats_only (fun filter => .inl ⟨filter, rfl⟩) (.inr rfl))
  apply (foldStore_meets table up same _ _).bind
  · rintro _ _ ⟨_, broken⟩
    cases broken
  · rintro result _ _ ⟨_, folded⟩
    cases folded
    have covers := (Statistics.ofRecords_covers s.sorted).of_perm s.sorted_perm
    intro before c answer _ _ answered
    refine ⟨trivial, ?_⟩
    cases reply : answer.reply with
    | ok d => exact ⟨_, rfl, _, _, rfl, covers⟩
    | error e => exact ⟨_, rfl, _, _, rfl, covers⟩

/-- Pages in which a listing was read, as a whole and in order. -/
structure Listed (s : Store) (f : Filter) (size : Nat) (pages : List (List Notification)) :
    Prop where
  unpaged : s.scan f = .ok pages.flatten
  accepted : pages.flatten.Perm (s.records.filter f.accepts)
  ordered : pages.flatten.Pairwise Store.Before
  count : pages.length = (s.records.filter f.accepts).length / size + 1

/-- What listings and reports show of a store, however its records are arranged when it is read. -/
structure Complete (s : Store) : Prop where
  pages : ∀ (f : Filter) (size : Nat) (arranged : Nat → Store), f.limit = none → f.offset = none →
    0 < size → (∀ offset, s.Rearranged (arranged offset)) →
      (∃ pages, Store.Pages arranged f size 0 pages) ∧
        ∀ pages, Store.Pages arranged f size 0 pages → Listed s f size pages
  stats : ∀ b : Backend, s.Rearranged b.store → stats.Yields .unwritten
    (fun result => ∃ report depth, result = .ok (report, depth) ∧ report.Covers s.records) b
  retryStatus : ∀ b : Backend, s.Rearranged b.store → retryStatus.Yields .unwritten (· = .ok
    ⟨countOf .failed s.records, countOf .queued s.records, countOf .pending s.records⟩) b

/-- A listing read in pages of any size is read once and as a whole. So both reports on the store
come to an end and count every record once. -/
theorem pages_and_reports_complete (table : s.IsTable) (up : s.available = true) : Complete s where
  pages f size arranged unlimited start positive same := by
    refine ⟨Store.exists_pages table.once up positive same f 0, fun pages read => ?_⟩
    have whole : pages.flatten = s.accepted f := read.flatten_eq table.once up same
    have count : (s.accepted f).length = (s.records.filter f.accepts).length :=
      (s.accepted_perm f).length_eq
    constructor
    case unpaged => exact whole ▸ Store.scan_unpaged up unlimited start
    case accepted => exact whole ▸ s.accepted_perm f
    case ordered => exact whole ▸ (Store.sorted_ascending table.once).filter _
    case count => rw [read.length_eq table.once up positive same, Nat.sub_zero, count]
  stats _ same := stats_yields table up same
  retryStatus _ same := retryStatus_yields table up same

namespace Sample

open Pipeline.Sample

def twins : Store := ⟨[.create ⟨2#128⟩ submission clock, .create ⟨1#128⟩ submission clock], true⟩

def swapped (offset : Nat) : Store :=
  if offset % 2 = 0 then twins else { twins with records := twins.records.reverse }

theorem twins_swapped (offset : Nat) : twins.Rearranged (swapped offset) := by
  unfold swapped
  split
  · exact .refl _
  · exact ⟨List.reverse_perm _, rfl⟩

end Sample

/-- Pages of one record: two of them are full, and the third one is empty. -/
theorem pages_and_reports_of_twins :
    Sample.twins.IsTable ∧ Sample.twins.available = true ∧
      (∃ pages, Store.Pages Sample.swapped .any 1 0 pages ∧ pages.length = 3 ∧
        pages.flatten.Perm Sample.twins.records) ∧
      retryStatus.Yields .unwritten (· = .ok ⟨0, 0, 2⟩)
        ⟨Sample.twins, .empty, Pipeline.Sample.clock, 0⟩ := by
  have table : Sample.twins.IsTable := ⟨by decide, by decide⟩
  have complete := pages_and_reports_complete table rfl
  obtain ⟨⟨pages, read⟩, all⟩ :=
    complete.pages .any 1 Sample.swapped rfl rfl Nat.one_pos Sample.twins_swapped
  have listed := all pages read
  exact ⟨table, rfl, ⟨pages, read, listed.count, listed.accepted⟩, complete.retryStatus _ (.refl _)⟩

end Recovery
end Courier
