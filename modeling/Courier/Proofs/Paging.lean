import Courier.Proofs.Listings

/-!
Listings that are read in pages. Each page is cut out of a listing of its own, made from records
that are kept in no particular order; yet the pages fit together, since no two records have the same
place in the order of listings. One after another they are the whole listing, each record once.
-/
namespace Courier

/-- The part of the matches that begins at that place and has no more than so many records. -/
def Filter.paged (f : Filter) (offset size : Nat) : Filter :=
  { f with limit := some size, offset := some offset }

namespace Store

/-- The same records in some other order. -/
structure Rearranged (s t : Store) : Prop where
  records : t.records.Perm s.records
  available : t.available = s.available

/-- Earlier created, or created at the same instant with a smaller identifier. -/
def Before (a b : Notification) : Prop :=
  a.createdAt < b.createdAt ∨ a.createdAt = b.createdAt ∧ a.id.toNat < b.id.toNat

/-- The pages of a listing from an offset on, read until one is not full. The page at an offset is
read from the records in the order that they have then. -/
inductive Pages (arranged : Nat → Store) (f : Filter) (size : Nat) :
    Nat → List (List Notification) → Prop
  | last {offset : Nat} {page : List Notification}
      (read : (arranged offset).scan (f.paged offset size) = .ok page)
      (short : page.length < size) :
      Pages arranged f size offset [page]
  | more {offset : Nat} {page : List Notification} {rest : List (List Notification)}
      (read : (arranged offset).scan (f.paged offset size) = .ok page) (full : size ≤ page.length)
      (onward : Pages arranged f size (offset + size) rest) :
      Pages arranged f size offset (page :: rest)

variable {s t u : Store} {f : Filter} {a b c : Notification} {size offset : Nat}
  {pages : List (List Notification)} {arranged : Nat → Store}

theorem Rearranged.refl (s : Store) : s.Rearranged s := ⟨.refl _, rfl⟩

theorem Rearranged.trans (first : s.Rearranged t) (second : t.Rearranged u) : s.Rearranged u :=
  ⟨second.records.trans first.records, second.available.trans first.available⟩

theorem precedes_iff : precedes a b = true ↔ a.createdAt.key < b.createdAt.key ∨
    a.createdAt.key = b.createdAt.key ∧ a.id.toNat ≤ b.id.toNat := by
  have same : a.createdAt = b.createdAt ↔ a.createdAt.key = b.createdAt.key :=
    ⟨congrArg _, Instant.key_injective⟩
  simp [precedes, same]
  rfl

theorem before_iff : Before a b ↔ a.createdAt.key < b.createdAt.key ∨
    a.createdAt.key = b.createdAt.key ∧ a.id.toNat < b.id.toNat := by
  have same : a.createdAt = b.createdAt ↔ a.createdAt.key = b.createdAt.key :=
    ⟨congrArg _, Instant.key_injective⟩
  rw [Before, same]
  rfl

theorem precedes_trans (a b c : Notification) (first : precedes a b = true)
    (second : precedes b c = true) : precedes a c = true := by
  rw [precedes_iff] at *
  omega

theorem precedes_total (a b : Notification) : (precedes a b || precedes b a) = true := by
  rw [Bool.or_eq_true, precedes_iff, precedes_iff]
  omega

theorem id_eq_of_precedes (first : precedes a b = true) (second : precedes b a = true) :
    a.id = b.id := by
  rw [precedes_iff] at first second
  exact Uuid.toNat_injective (by omega)

theorem before_of_precedes (first : precedes a b = true) (apart : a.id ≠ b.id) : Before a b := by
  rw [precedes_iff] at first
  rw [before_iff]
  have distinct : a.id.toNat ≠ b.id.toNat := fun same => apart (Uuid.toNat_injective same)
  omega

theorem eq_of_id_eq (once : s.ids.Nodup) (ha : a ∈ s.records) (hb : b ∈ s.records)
    (same : a.id = b.id) :
    a = b := by
  have first := find?_of_mem once ha
  rw [same, find?_of_mem once hb] at first
  exact (Option.some.inj first).symm

theorem sorted_perm (s : Store) : s.sorted.Perm s.records := List.mergeSort_perm _ _

theorem sorted_ordered (s : Store) : s.sorted.Pairwise fun a b => precedes a b = true :=
  List.pairwise_mergeSort precedes_trans precedes_total _

theorem sorted_ascending (once : s.ids.Nodup) : s.sorted.Pairwise Before := by
  have apart : s.sorted.Pairwise fun a b => a.id ≠ b.id :=
    List.pairwise_map.mp ((s.sorted_perm.map Notification.id).nodup_iff.mpr once)
  exact s.sorted_ordered.imp₂ (fun a b first distinct => before_of_precedes first distinct) apart

theorem sorted_of_rearranged (once : s.ids.Nodup) (same : s.Rearranged t) :
    t.sorted = s.sorted := by
  have perm : t.sorted.Perm s.sorted :=
    t.sorted_perm.trans (same.records.trans s.sorted_perm.symm)
  refine perm.eq_of_pairwise ?_ t.sorted_ordered s.sorted_ordered
  intro a b ha hb first second
  have ha := s.sorted_perm.mem_iff.mp (perm.mem_iff.mp ha)
  have hb := s.sorted_perm.mem_iff.mp hb
  exact eq_of_id_eq once ha hb (id_eq_of_precedes first second)

theorem scan_of_rearranged (once : s.ids.Nodup) (same : s.Rearranged t) (f : Filter) :
    t.scan f = s.scan f := by
  rw [scan, scan, same.available, sorted_of_rearranged once same]

def accepted (s : Store) (f : Filter) : List Notification := s.sorted.filter f.accepts

theorem accepted_perm (s : Store) (f : Filter) : (s.accepted f).Perm (s.records.filter f.accepts) :=
  s.sorted_perm.filter _

theorem scan_paged (up : s.available = true) (f : Filter) (offset size : Nat) :
    s.scan (f.paged offset size) = .ok (((s.accepted f).drop offset).take size) := by
  rw [scan, if_pos up]
  rfl

theorem scan_unpaged (up : s.available = true) (limit : f.limit = none) (start : f.offset = none) :
    s.scan f = .ok (s.accepted f) := by
  rw [scan, if_pos up, page, limit, start]
  rfl

theorem scan_arranged (once : s.ids.Nodup) (up : s.available = true) (same : s.Rearranged t)
    (f : Filter) (offset size : Nat) :
    t.scan (f.paged offset size) = .ok (((s.accepted f).drop offset).take size) :=
  (scan_of_rearranged once same _).trans (scan_paged up f offset size)

theorem Pages.flatten_eq (once : s.ids.Nodup) (up : s.available = true)
    (same : ∀ offset, s.Rearranged (arranged offset)) (read : Pages arranged f size offset pages) :
    pages.flatten = (s.accepted f).drop offset := by
  induction read with
  | @last offset page read short =>
      obtain rfl := Except.ok.inj
          ((scan_arranged once up (same offset) f offset size).symm.trans read)
      have whole : ((s.accepted f).drop offset).length ≤ size := by
        rw [List.length_take] at short
        omega
      rw [List.flatten_singleton, List.take_of_length_le whole]
  | @more offset page rest read full onward ih =>
      obtain rfl := Except.ok.inj
          ((scan_arranged once up (same offset) f offset size).symm.trans read)
      rw [List.flatten_cons, ih, ← List.drop_drop, List.take_append_drop]

theorem Pages.length_eq (once : s.ids.Nodup) (up : s.available = true) (positive : 0 < size)
    (same : ∀ offset, s.Rearranged (arranged offset)) (read : Pages arranged f size offset pages) :
    pages.length = ((s.accepted f).length - offset) / size + 1 := by
  induction read with
  | @last offset page read short =>
      obtain rfl := Except.ok.inj
          ((scan_arranged once up (same offset) f offset size).symm.trans read)
      rw [List.length_take, List.length_drop] at short
      rw [Nat.div_eq_of_lt (by omega)]
      rfl
  | @more offset page rest read full onward ih =>
      obtain rfl := Except.ok.inj
          ((scan_arranged once up (same offset) f offset size).symm.trans read)
      rw [List.length_take, List.length_drop] at full
      have left : size ≤ (s.accepted f).length - offset := by omega
      rw [List.length_cons, ih, Nat.sub_add_eq, Nat.div_eq_sub_div positive left]

theorem exists_pages (once : s.ids.Nodup) (up : s.available = true) (positive : 0 < size)
    (same : ∀ offset, s.Rearranged (arranged offset)) (f : Filter) (offset : Nat) :
    ∃ pages, Pages arranged f size offset pages := by
  have read := scan_arranged once up (same offset) f offset size
  by_cases short : (((s.accepted f).drop offset).take size).length < size
  · exact ⟨_, .last read short⟩
  · rw [Nat.not_lt] at short
    -- a full page lies within the listing, so that less is left after it
    have within : offset + size ≤ (s.accepted f).length := by
      rw [List.length_take, List.length_drop] at short
      omega
    obtain ⟨rest, onward⟩ := exists_pages once up positive same f (offset + size)
    exact ⟨_, .more read short onward⟩
termination_by (s.accepted f).length - offset

end Store
end Courier
