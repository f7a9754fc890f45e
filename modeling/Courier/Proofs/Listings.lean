import Mathlib.Data.List.Nodup
import Courier.Store

namespace Courier.Store

variable {s t : Store} {n : Notification} {id : Uuid} {status : Status} {listed : List Notification}

def ids (s : Store) : List Uuid := s.records.map Notification.id

theorem mem_of_find? (h : s.find? id = some n) : n ∈ s.records := List.mem_of_find?_eq_some h

theorem find?_of_mem (once : s.ids.Nodup) (mem : n ∈ s.records) : s.find? n.id = some n := by
  obtain ⟨records, available⟩ := s
  simp only [ids, find?] at once mem ⊢
  induction records with
  | nil => cases mem
  | cons first rest ih =>
      obtain ⟨apart, once⟩ := List.nodup_cons.mp once
      by_cases same : first.id = n.id
      · have absent : n ∉ rest := fun later => apart (same ▸ List.mem_map_of_mem later)
        have own : n = first := (List.mem_cons.mp mem).resolve_right absent
        simp [own]
      · have later : n ∈ rest := (List.mem_cons.mp mem).resolve_left fun own => same (own ▸ rfl)
        simp [same, ih once later]

@[simp] theorem ids_put (s : Store) (n : Notification) : (s.put n).ids = s.ids := by
  have same : ∀ old ∈ s.records, (if old.id = n.id then n else old).id = old.id := by
    intro old _
    by_cases own : old.id = n.id
    · simp [own]
    · simp [own]
  simpa [ids, put] using same

theorem nodup_ids_insert (once : s.ids.Nodup) (h : s.insert n = .ok t) : t.ids.Nodup := by
  obtain ⟨absent, rfl⟩ := insert_eq_ok h
  have fresh : n.id ∉ s.ids := by
    intro mem
    obtain ⟨old, mem, same⟩ := List.mem_map.mp mem
    rw [← same, find?_of_mem once mem] at absent
    cases absent
  simpa [ids, List.nodup_append] using ⟨once,
    fun old mem same => fresh (same ▸ List.mem_map_of_mem mem)⟩

theorem scan_withStatus (h : s.scan (.withStatus status) = .ok listed) :
    s.available = true ∧ listed = s.sorted.filter fun n => status == n.status := by
  unfold scan at h
  split at h
  · rename_i available
    refine ⟨available, ?_⟩
    rw [← Except.ok.inj h]
    apply List.filter_congr
    intro n _
    simp [Filter.accepts, Filter.withStatus, Filter.any]
  · cases h

theorem mem_listed (h : s.scan (.withStatus status) = .ok listed) :
    n ∈ listed ↔ n ∈ s.records ∧ n.status = status := by
  obtain ⟨_, rfl⟩ := scan_withStatus h
  have sorted : n ∈ s.sorted ↔ n ∈ s.records := (List.mergeSort_perm _ _).mem_iff
  rw [List.mem_filter, sorted]
  cases n.status <;> cases status <;> simp

theorem nodup_listed (once : s.ids.Nodup) (h : s.scan (.withStatus status) = .ok listed) :
    (listed.map Notification.id).Nodup := by
  obtain ⟨_, rfl⟩ := scan_withStatus h
  have sorted : (s.sorted.map Notification.id).Nodup :=
    ((List.mergeSort_perm _ _).map _).nodup_iff.mpr once
  exact sorted.sublist (List.filter_sublist.map _)

end Courier.Store
