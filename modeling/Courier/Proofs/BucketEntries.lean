import Mathlib.Data.List.Basic
import Courier.RateLimit.Bucket

namespace Courier.RateLimit.Buckets

variable {α : Type} {key other : String} {b : Bucket α} {entries : List (String × Bucket α)}

def keys (entries : List (String × Bucket α)) : List String := entries.map Prod.fst

@[simp] theorem lookup_putEntry_self : (putEntry key b entries).lookup key = some b := by
  induction entries with
  | nil => simp [putEntry]
  | cons e rest ih =>
    obtain ⟨k, old⟩ := e
    by_cases same : k = key
    · simp [putEntry, same]
    · simp [putEntry, same, List.lookup_cons, beq_false_of_ne (Ne.symm same), ih]

theorem lookup_putEntry_of_ne (h : other ≠ key) :
    (putEntry key b entries).lookup other = entries.lookup other := by
  induction entries with
  | nil => simp [putEntry, List.lookup_cons, beq_false_of_ne h]
  | cons e rest ih =>
    obtain ⟨k, old⟩ := e
    by_cases same : k = key
    · simp [putEntry, same, List.lookup_cons, beq_false_of_ne h]
    · simp [putEntry, same, List.lookup_cons, ih]

theorem mem_putEntry {e : String × Bucket α} (h : e ∈ putEntry key b entries) :
    e = (key, b) ∨ e ∈ entries := by
  induction entries with
  | nil => exact .inl (by simpa [putEntry] using h)
  | cons first rest ih =>
    obtain ⟨k, old⟩ := first
    by_cases same : k = key
    · simp only [putEntry, same, if_true, List.mem_cons] at h ⊢
      exact h.imp id .inr
    · simp only [putEntry, same, if_false, List.mem_cons] at h ⊢
      rcases h with rfl | h
      · exact .inr (.inl rfl)
      · exact (ih h).imp id .inr

theorem nodup_keys_putEntry (h : (keys entries).Nodup) : (keys (putEntry key b entries)).Nodup := by
  induction entries with
  | nil => simp [putEntry, keys]
  | cons first rest ih =>
    obtain ⟨k, old⟩ := first
    have apart : k ∉ keys rest ∧ (keys rest).Nodup := by simpa [keys] using h
    by_cases same : k = key
    · simpa [putEntry, same, keys] using h
    · have absent : k ∉ keys (putEntry key b rest) := by
        intro mem
        obtain ⟨e, put, ofKey⟩ := List.mem_map.mp mem
        rcases mem_putEntry put with rfl | old
        · exact same ofKey.symm
        · exact apart.1 (ofKey ▸ List.mem_map_of_mem old)
      have rest := ih apart.2
      simp only [putEntry, same, if_false, keys, List.map_cons, List.nodup_cons]
      exact ⟨absent, rest⟩

theorem mem_of_lookup (h : entries.lookup key = some b) : (key, b) ∈ entries := by
  induction entries with
  | nil => simp at h
  | cons first rest ih =>
    obtain ⟨k, old⟩ := first
    by_cases same : key = k
    · obtain rfl : old = b := by simpa [List.lookup_cons, same] using h
      simp [same]
    · have found : rest.lookup key = some b := by
        simpa [List.lookup_cons, beq_false_of_ne same] using h
      exact List.mem_cons_of_mem _ (ih found)

theorem lookup_eq_none (h : key ∉ keys entries) : entries.lookup key = none := by
  cases found : entries.lookup key with
  | none => rfl
  | some b => exact absurd (List.mem_map_of_mem (mem_of_lookup found)) h

theorem lookup_filter (keep : Bucket α → Bool) (once : (keys entries).Nodup) :
    (entries.filter fun e => keep e.2).lookup key = (entries.lookup key).filter keep := by
  induction entries with
  | nil => rfl
  | cons first rest ih =>
    obtain ⟨k, old⟩ := first
    have apart : k ∉ keys rest ∧ (keys rest).Nodup := by simpa [keys] using once
    have remaining := ih apart.2
    by_cases same : key = k
    · subst same
      by_cases kept : keep old
      · simp [kept, Option.filter]
      · have gone : rest.lookup key = none := lookup_eq_none apart.1
        simp [kept, remaining, gone, Option.filter]
    · by_cases kept : keep old
      · simpa [kept, List.lookup_cons, beq_false_of_ne same] using remaining
      · simpa [kept, List.lookup_cons, beq_false_of_ne same] using remaining

variable {bs : Buckets α} {c : Config α} {now : Instant}

theorem lookup_swept (c : Config α) (now : Instant) (key : String)
    (once : (keys bs.entries).Nodup) :
    (bs.swept c now).lookup key = bs.find? key ∨
      ((bs.swept c now).lookup key = none ∧
        ∃ b, bs.find? key = some b ∧ c.isIdle b now = true) := by
  unfold swept find?
  split
  · rw [lookup_filter (fun b => !c.isIdle b now) once]
    cases found : bs.entries.lookup key with
    | none => exact .inl rfl
    | some b =>
      by_cases idle : c.isIdle b now = true
      · exact .inr ⟨by simp [idle], b, rfl, idle⟩
      · exact .inl (by simp [idle])
  · exact .inl rfl

theorem mem_of_mem_swept {e : String × Bucket α} (h : e ∈ bs.swept c now) : e ∈ bs.entries := by
  unfold swept at h
  split at h
  · exact List.mem_of_mem_filter h
  · exact h

theorem nodup_keys_swept (once : (keys bs.entries).Nodup) :
    (keys (bs.swept c now)).Nodup := by
  have sub : (bs.swept c now).Sublist bs.entries := by
    unfold swept
    split
    · exact List.filter_sublist
    · exact List.Sublist.refl _
  exact once.sublist (sub.map Prod.fst)

end Courier.RateLimit.Buckets
