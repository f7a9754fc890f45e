import Courier.Recovery.Admin
import Courier.Worker
import Mathlib.Data.List.Induction

/-!
What has happened in a run of many calls: which calls began, which of their requests were answered
and how, and which jobs were leased. The record of a notification, all the versions it went through
and the calls that wrote them are read off the past.
-/
namespace Courier

theorem getElem?_snoc {α : Type} {l : List α} {a b : α} {i : Nat}
    (found : (l ++ [a])[i]? = some b) : l[i]? = some b ∨ (i = l.length ∧ b = a) := by
  rw [List.getElem?_append] at found
  split at found
  · exact .inl found
  · rw [List.getElem?_singleton] at found
    split at found
    · cases found
      exact .inr ⟨by omega, rfl⟩
    · cases found

theorem snoc_eq_split {α : Type} {l before after : List α} {a x : α}
    (h : l ++ [a] = before ++ x :: after) :
    (after = [] ∧ l = before ∧ a = x) ∨
      ∃ rest, after = rest ++ [a] ∧ l = before ++ x :: rest := by
  induction after using List.reverseRecOn with
  | nil =>
      obtain ⟨rfl, rfl⟩ := List.append_singleton_inj.mp h
      exact .inl ⟨rfl, rfl, rfl⟩
  | append_singleton rest last _ =>
      rw [← List.cons_append, ← List.append_assoc] at h
      obtain ⟨rfl, rfl⟩ := List.append_singleton_inj.mp h
      exact .inr ⟨rest, rfl, rfl⟩

theorem split_of_append {α : Type} {l more before after : List α} {a : α}
    (h : l ++ more = before ++ a :: after) (absent : a ∉ more) :
    ∃ rest, after = rest ++ more ∧ l = before ++ a :: rest := by
  rcases List.append_eq_append_iff.mp h with ⟨between, rfl, rfl⟩ | ⟨between, rfl, same⟩
  · exact absurd (List.mem_append_right _ List.mem_cons_self) absent
  · cases between with
    | nil =>
        rw [List.nil_append] at same
        subst same
        exact absurd List.mem_cons_self absent
    | cons x rest =>
        obtain ⟨rfl, rfl⟩ := List.cons.inj same
        exact ⟨rest, rfl, rfl⟩

theorem split_unique {α : Type} {p : α → Bool} {l l' r r' : List α} {a a' : α}
    (h : l ++ a :: r = l' ++ a' :: r') (is : p a' = true) (left : ∀ x ∈ l, p x = false)
    (right : ∀ x ∈ r, p x = false) : a = a' ∧ r = r' := by
  induction l generalizing l' with
  | nil =>
      cases l' with
      | nil => exact List.cons.inj h
      | cons x l' =>
          obtain ⟨_, rfl⟩ := List.cons.inj h
          have other := right a' (List.mem_append_right _ List.mem_cons_self)
          exact nomatch is.symm.trans other
  | cons x l ih =>
      cases l' with
      | nil =>
          obtain ⟨rfl, _⟩ := List.cons.inj h
          exact nomatch is.symm.trans (left x List.mem_cons_self)
      | cons y l' =>
          obtain ⟨_, same⟩ := List.cons.inj h
          exact ih same fun z mem => left z (List.mem_cons_of_mem x mem)

/-- What all calls of a run have in common: how failures are retried, the providers, and the time
that a provider has for a message. -/
structure Deployment where
  policy : Retry.Policy
  emitters : Worker.Emitters
  sendLimit : Duration

/-- The calls that callers, administrators and workers make. -/
inductive Operation where
  | create (s : Submission)
  | get (id : Uuid)
  | list (filter : Filter)
  | enqueue (n : Notification)
  | markQueued (id : Uuid)
  | record (id : Uuid) (attempt : Nat) (outcome : Outcome)
  | resetFailed (id : Uuid)
  | retryFailed (limit : Option Nat)
  | process (lease : Lease)

namespace Operation

@[reducible] def Result : Operation → Type
  | create _ | get _ | enqueue _ | markQueued _ | resetFailed _ => Except Error Notification
  | list _ => Except Error (List Notification)
  | record _ _ _ => Except Error Service.Recorded
  | retryFailed _ => Except Error Recovery.Summary
  | process _ => Worker.JobOutcome

def program (d : Deployment) : (op : Operation) → Prog op.Result
  | create s => Service.create s
  | get id => Service.get id
  | list filter => Service.list filter
  | enqueue n => Service.enqueue n
  | markQueued id => Service.markQueued id
  | record id attempt outcome => Service.record d.policy id attempt outcome
  | resetFailed id => Service.resetFailed id
  | retryFailed limit => Recovery.retryFailed limit
  | process lease => Worker.process d.policy d.emitters d.sendLimit lease

end Operation

inductive Happening where
  /-- A call began. Calls are numbered from zero in the order in which they began. -/
  | began (op : Operation)
  /-- A request of the call with that number was answered. -/
  | answered (call : Nat) (request : Request) (reply : request.Reply)
  /-- A worker was given a lease. -/
  | leased (lease : Lease)
  /-- A job was taken for a lease that would have run out beyond all dates. -/
  | dropped (job : Job)

/-- What has happened, the oldest first. -/
abbrev Past := List Happening

namespace Happening

def operation? : Happening → Option Operation
  | began op => some op
  | _ => none

def lease? : Happening → Option Lease
  | leased lease => some lease
  | _ => none

def write? : Happening → Option (Nat × Notification)
  | answered call (.insert n) (.ok ()) => some (call, n)
  | answered call (.update _) (.ok stored) => some (call, stored)
  | _ => none

def pushed? : Happening → Option Job
  | answered _ (.enqueue job) (.ok ()) => some job
  | _ => none

end Happening

namespace Past

def operations (past : Past) : List Operation := past.filterMap Happening.operation?

def leases (past : Past) : List Lease := past.filterMap Happening.lease?

/-- A worker works on a job that it was given; all else may be asked for at any time. -/
def permits (past : Past) : Operation → Bool
  | .process lease => past.leases.contains lease
  | _ => true

def writes (past : Past) : List (Nat × Notification) := past.filterMap Happening.write?

def writesTo (past : Past) (id : Uuid) : List (Nat × Notification) :=
  past.writes.filter fun w => w.2.id = id

def versions (past : Past) (id : Uuid) : List Notification := (past.writesTo id).map Prod.snd

def latest (past : Past) (id : Uuid) : Option Notification := (past.versions id).getLast?

/-- A job for the attempt has been put on the queue. -/
def Asked (past : Past) (key : Job.Key) : Prop :=
  ∃ e ∈ past, ∃ job, e.pushed? = some job ∧ job.key = key

variable {past before now : Past} {id : Uuid} {n : Notification} {e : Happening} {call : Nat}

theorem writesTo_append (past more : Past) (id : Uuid) :
    (past ++ more).writesTo id = past.writesTo id ++ more.writesTo id := by
  simp only [writesTo, writes, List.filterMap_append, List.filter_append]

theorem writesTo_snoc_of_none (h : e.write? = none) :
    writesTo (past ++ [e]) id = past.writesTo id := by
  simp [writesTo, writes, h]

theorem writesTo_snoc_self (h : e.write? = some (call, n)) :
    writesTo (past ++ [e]) n.id = past.writesTo n.id ++ [(call, n)] := by
  simp [writesTo, writes, h]

theorem writesTo_snoc_of_ne (h : e.write? = some (call, n)) (other : n.id ≠ id) :
    writesTo (past ++ [e]) id = past.writesTo id := by
  simp [writesTo, writes, h, other]

theorem versions_append (past more : Past) (id : Uuid) :
    (past ++ more).versions id = past.versions id ++ more.versions id := by
  simp only [versions, writesTo_append, List.map_append]

theorem versions_cons_self (h : e.write? = some (call, n)) :
    versions (e :: past) n.id = n :: past.versions n.id := by
  simp [versions, writesTo, writes, h]

theorem versions_snoc_of_none (h : e.write? = none) :
    versions (past ++ [e]) id = past.versions id := by
  rw [versions, writesTo_snoc_of_none h, versions]

theorem versions_snoc_self (h : e.write? = some (call, n)) :
    versions (past ++ [e]) n.id = past.versions n.id ++ [n] := by
  simp only [versions, writesTo_snoc_self h, List.map_append, List.map_cons, List.map_nil]

theorem versions_snoc_of_ne (h : e.write? = some (call, n)) (other : n.id ≠ id) :
    versions (past ++ [e]) id = past.versions id := by
  rw [versions, writesTo_snoc_of_ne h other, versions]

theorem latest_snoc_of_none (h : e.write? = none) : latest (past ++ [e]) id = past.latest id := by
  rw [latest, versions_snoc_of_none h, latest]

theorem latest_snoc_self (h : e.write? = some (call, n)) :
    latest (past ++ [e]) n.id = some n := by
  rw [latest, versions_snoc_self h, List.getLast?_concat]

theorem latest_snoc_of_ne (h : e.write? = some (call, n)) (other : n.id ≠ id) :
    latest (past ++ [e]) id = past.latest id := by
  rw [latest, versions_snoc_of_ne h other, latest]

theorem id_of_mem_versions (h : n ∈ past.versions id) : n.id = id := by
  obtain ⟨w, mem, rfl⟩ := List.mem_map.mp h
  simpa using (List.mem_filter.mp mem).2

theorem mem_versions : n ∈ past.versions id ↔
    ∃ e ∈ past, ∃ call, e.write? = some (call, n) ∧ n.id = id := by
  simp only [versions, writesTo, writes, List.mem_map, List.mem_filter, List.mem_filterMap,
    decide_eq_true_eq]
  constructor
  · rintro ⟨⟨call, _⟩, ⟨⟨e, mem, wrote⟩, own⟩, rfl⟩
    exact ⟨e, mem, call, wrote, own⟩
  · rintro ⟨e, mem, call, wrote, own⟩
    exact ⟨(call, n), ⟨⟨e, mem, wrote⟩, own⟩, rfl⟩

theorem versions_subset (grown : past <+: now) : past.versions id ⊆ now.versions id := by
  obtain ⟨more, rfl⟩ := grown
  rw [versions_append]
  exact List.subset_append_left _ _

theorem getElem?_versions {i : Nat} : (past.versions id)[i]? = some n ↔
    ∃ call, (past.writesTo id)[i]? = some (call, n) := by
  simp [versions, List.getElem?_map]

theorem writesTo_mono {i : Nat} {w : Nat × Notification} (grown : past <+: now)
    (found : (past.writesTo id)[i]? = some w) : (now.writesTo id)[i]? = some w := by
  obtain ⟨more, rfl⟩ := grown
  obtain ⟨bound, _⟩ := List.getElem?_eq_some_iff.mp found
  rw [writesTo_append, List.getElem?_append_left bound]
  exact found

theorem versions_mono {i : Nat} (grown : past <+: now) (found : (past.versions id)[i]? = some n) :
    (now.versions id)[i]? = some n := by
  obtain ⟨call, wrote⟩ := getElem?_versions.mp found
  exact getElem?_versions.mpr ⟨call, writesTo_mono grown wrote⟩

theorem latest_eq_some : past.latest id = some n ↔
    ∃ call, (past.writesTo id).getLast? = some (call, n) := by
  simp [latest, versions, List.getLast?_map]

theorem operations_append (past more : Past) :
    (past ++ more).operations = past.operations ++ more.operations := List.filterMap_append

theorem operations_mono {op : Operation} (grown : past <+: now)
    (h : past.operations[call]? = some op) : now.operations[call]? = some op := by
  obtain ⟨more, rfl⟩ := grown
  obtain ⟨bound, _⟩ := List.getElem?_eq_some_iff.mp h
  rw [operations_append, List.getElem?_append_left bound]
  exact h

theorem mem_versions_of_latest (h : past.latest id = some n) : n ∈ past.versions id :=
  List.mem_of_getLast? h

theorem Asked.mono {key : Job.Key} (h : past.Asked key) (grown : past <+: now) :
    now.Asked key := by
  obtain ⟨e, mem, job, pushed, same⟩ := h
  exact ⟨e, grown.subset mem, job, pushed, same⟩

end Past
end Courier
