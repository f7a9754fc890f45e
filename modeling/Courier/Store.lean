import Courier.Error
import Courier.Notification

/-!
The store of notifications. A record is replaced only by a writer that has seen its latest version,
and what was fixed at creation stays. Listings are in order of creation.
-/
namespace Courier

structure Store where
  records : List Notification
  available : Bool

namespace Store

def empty : Store := ⟨[], true⟩

def unavailableError : Error := .storeUnavailable "in-memory store marked unavailable"

def find? (s : Store) (id : Uuid) : Option Notification :=
  s.records.find? fun n => n.id == id

def put (s : Store) (n : Notification) : Store :=
  { s with records := s.records.map fun old => if old.id = n.id then n else old }

/-- Earlier created first; of one instant, the smaller identifier first. -/
def precedes (a b : Notification) : Bool :=
  a.createdAt < b.createdAt || (a.createdAt == b.createdAt && a.id ≤ b.id)

def sorted (s : Store) : List Notification := s.records.mergeSort precedes

/-- The record that a write of `n` over `old` leaves behind: identity and content are those of
`old`, all else is that of `n`, one version on. -/
def merged (old n : Notification) : Notification :=
  { n with
    channel := old.channel
    recipient := old.recipient
    payload := old.payload
    createdAt := old.createdAt
    version := n.version + 1 }

def get (s : Store) (id : Uuid) : Except Error (Option Notification) :=
  if s.available then .ok (s.find? id) else .error unavailableError

def insert (s : Store) (n : Notification) : Except Error Store :=
  if s.available then
    match s.find? n.id with
    | some _ => .error (.alreadyExists n.id)
    | none => .ok { s with records := s.records ++ [n] }
  else .error unavailableError

/-- The record as written and the store with it. The write is refused unless it carries the version
that is stored. -/
def update (s : Store) (n : Notification) : Except Error (Notification × Store) :=
  if s.available then
    match s.find? n.id with
    | none => .error (.notificationNotFound n.id)
    | some old =>
      if old.version = n.version then .ok (merged old n, s.put (merged old n))
      else .error (.versionChanged n.id n.version old.version)
  else .error unavailableError

/-- The wanted part of the records that the filter accepts. -/
def page (filter : Filter) (records : List Notification) : List Notification :=
  let rest := (records.filter filter.accepts).drop (filter.offset.getD 0)
  match filter.limit with
  | none => rest
  | some limit => rest.take limit

def scan (s : Store) (filter : Filter) : Except Error (List Notification) :=
  if s.available then .ok (page filter s.sorted) else .error unavailableError

def ping (s : Store) : Except Error Unit :=
  if s.available then .ok () else .error unavailableError

theorem id_of_find? {s : Store} {id : Uuid} {n : Notification} (h : s.find? id = some n) :
    n.id = id := by
  simpa using List.find?_some h

theorem find?_put_self {s : Store} {n old : Notification} (h : s.find? n.id = some old) :
    (s.put n).find? n.id = some n := by
  obtain ⟨records, available⟩ := s
  simp only [find?, put] at h ⊢
  induction records with
  | nil => cases h
  | cons r rest ih =>
    by_cases same : r.id = n.id
    · simp [same]
    · simp only [List.find?_cons, beq_false_of_ne same] at h
      simp [same, ih h]

theorem find?_put_of_ne {s : Store} {n : Notification} {id : Uuid} (other : n.id ≠ id) :
    (s.put n).find? id = s.find? id := by
  obtain ⟨records, available⟩ := s
  simp only [find?, put]
  induction records with
  | nil => rfl
  | cons r rest ih =>
    by_cases same : r.id = n.id
    · simp [same, other, ih]
    · simp [same, List.find?_cons, ih]

theorem find?_put {s : Store} {n old : Notification} (h : s.find? n.id = some old) (id : Uuid) :
    (s.put n).find? id = if n.id = id then some n else s.find? id := by
  split
  · subst id
    exact find?_put_self h
  · exact find?_put_of_ne ‹_›

theorem find?_append {s : Store} {n : Notification} (absent : s.find? n.id = none) (id : Uuid) :
    find? { s with records := s.records ++ [n] } id =
      if n.id = id then some n else s.find? id := by
  simp only [find?, List.find?_append] at absent ⊢
  split
  · subst id
    simp [absent]
  · simp [*]

theorem mem_put {s : Store} {n x : Notification} (h : x ∈ (s.put n).records) :
    x = n ∨ x ∈ s.records := by
  obtain ⟨old, mem, rfl⟩ := List.mem_map.mp h
  split
  · exact .inl rfl
  · exact .inr mem

theorem insert_eq_ok {s t : Store} {n : Notification} (h : s.insert n = .ok t) :
    s.find? n.id = none ∧ t = { s with records := s.records ++ [n] } := by
  unfold insert at h
  split at h
  · split at h
    · cases h
    · rename_i absent
      exact ⟨absent, (Except.ok.inj h).symm⟩
  · cases h

/-- A write that is accepted replaces the record whose version it carries. -/
theorem update_eq_ok {s t : Store} {n stored : Notification} (h : s.update n = .ok (stored, t)) :
    ∃ old, s.find? n.id = some old ∧ old.version = n.version ∧ stored = merged old n ∧
      t = s.put stored := by
  unfold update at h
  split at h
  · split at h
    · cases h
    · rename_i old found
      split at h
      · rename_i current
        cases h
        exact ⟨old, found, current, rfl, rfl⟩
      · cases h
  · cases h

theorem update_of_current {s : Store} {n old : Notification} (available : s.available = true)
    (found : s.find? n.id = some old) (current : old.version = n.version) :
    s.update n = .ok (merged old n, s.put (merged old n)) := by
  unfold update
  rw [if_pos available, found]
  exact if_pos current

theorem update_of_changed {s : Store} {n old : Notification} (available : s.available = true)
    (found : s.find? n.id = some old) (changed : old.version ≠ n.version) :
    s.update n = .error (.versionChanged n.id n.version old.version) := by
  unfold update
  rw [if_pos available, found]
  exact if_neg changed

end Store
end Courier
