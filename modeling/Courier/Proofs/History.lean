import Courier.Proofs.WorkerWarrants

/-!
The history of a record. Versions are numbered as they are stored, so a writer whose version is
still the latest has seen the very record that it replaces. From that, every write is accounted for
by the rewriting of the version right before it.
-/
namespace Courier

namespace Past

variable {policy : Retry.Policy} {op : Operation} {past now : Past} {e : Happening}
  {cur next n x y : Notification} {time : Instant} {id : Uuid} {i call writer : Nat}
  {writes : List (Nat × Notification)}

theorem Rewrite.id_eq (h : past.Rewrite policy op cur time next) : next.id = cur.id := by
  cases h with
  | queue able pending backed => rfl
  | report reports queued reported job => exact reported.id_eq
  | reset able failed => rfl
  | restore able known wasFailed replaced same reset =>
      have own := id_of_mem_versions known
      exact own

theorem Rewrite.version_eq (h : past.Rewrite policy op cur time next) :
    next.version = cur.version := by
  cases h with
  | queue able pending backed => rfl
  | report reports queued reported job => exact reported.version_eq
  | reset able failed => rfl
  | restore able known wasFailed replaced same reset => rfl

/-- The call has replaced version `x` of a record by another one that it made of it. -/
inductive Rewrote (policy : Retry.Policy) (past : Past) (call : Nat) (x : Notification) :
    Notification → Prop
  | intro {op : Operation} {next : Notification} {time : Instant}
      (asker : past.operations[call]? = some op) (seen : past.Seen x time)
      (rewrite : past.Rewrite policy op x time next) :
      Rewrote policy past call x (Store.merged x next)

theorem Rewrote.mono (h : past.Rewrote policy call x y) (grown : past <+: now) :
    now.Rewrote policy call x y := by
  cases h with
  | intro asker seen rewrite =>
      exact .intro (operations_mono grown asker) (seen.mono grown) (rewrite.mono grown)

theorem Rewrote.version_eq (h : past.Rewrote policy call x y) : y.version = x.version + 1 := by
  cases h with
  | intro asker seen rewrite => exact congrArg (· + 1) rewrite.version_eq

/-- Writes of one record: the first stores a submission, for a call that does more than report, and
each later one replaces what the one before has stored. -/
inductive Chain (policy : Retry.Policy) (past : Past) : List (Nat × Notification) → Prop
  | nil : Chain policy past []
  | submitted {call : Nat} {op : Operation} {n : Notification}
      (asker : past.operations[call]? = some op) (able : op.onlyReports = false)
      (submitted : past.Submitted n) : Chain policy past [(call, n)]
  | rewritten {writes : List (Nat × Notification)} {writer call : Nat} {x y : Notification}
      (before : Chain policy past writes) (last : writes.getLast? = some (writer, x))
      (rewrote : past.Rewrote policy call x y) : Chain policy past (writes ++ [(call, y)])

theorem Chain.mono (h : Chain policy past writes) (grown : past <+: now) :
    Chain policy now writes := by
  induction h with
  | nil => exact .nil
  | submitted asker able submitted =>
      exact .submitted (operations_mono grown asker) able (submitted.mono grown)
  | rewritten before last rewrote ih => exact .rewritten ih last (rewrote.mono grown)

theorem exists_before {α : Type} {l : List α} {a : α} (found : l[i + 1]? = some a) :
    ∃ b, l[i]? = some b := by
  obtain ⟨bound, _⟩ := List.getElem?_eq_some_iff.mp found
  exact ⟨l[i], List.getElem?_eq_getElem (by omega)⟩

theorem exists_next {α : Type} {l : List α} {a : α} (found : l[i]? = some a)
    (more : i + 1 ≠ l.length) : ∃ b, l[i + 1]? = some b := by
  obtain ⟨bound, _⟩ := List.getElem?_eq_some_iff.mp found
  exact ⟨l[i + 1], List.getElem?_eq_getElem (by omega)⟩

theorem Chain.version_eq (h : Chain policy past writes) (found : writes[i]? = some (call, n)) :
    n.version = i := by
  induction h generalizing i call n with
  | nil => cases found
  | submitted asker able submitted =>
      rw [List.getElem?_singleton] at found
      split at found
      · cases found
        subst i
        cases submitted
        rfl
      · cases found
  | @rewritten writes writer call x y before last rewrote ih =>
      rcases getElem?_snoc found with old | ⟨rfl, same⟩
      · exact ih old
      · cases same
        rw [List.getLast?_eq_getElem?] at last
        obtain ⟨bound, _⟩ := List.getElem?_eq_some_iff.mp last
        have numbered := ih last
        have next := rewrote.version_eq
        omega

theorem Chain.rewrote (h : Chain policy past writes) (first : writes[i]? = some (writer, x))
    (second : writes[i + 1]? = some (call, y)) : past.Rewrote policy call x y := by
  induction h generalizing i writer call x y with
  | nil => cases first
  | submitted asker able submitted => cases second
  | @rewritten writes last_writer last_call old new before last rewrote ih =>
      rcases getElem?_snoc first with known | ⟨rfl, _⟩
      · rcases getElem?_snoc second with known' | ⟨place, same⟩
        · exact ih known known'
        · rw [List.getLast?_eq_getElem?, ← place, Nat.add_sub_cancel, known] at last
          cases last
          cases same
          exact rewrote
      · simp at second

theorem Chain.first (h : Chain policy past writes) (found : writes[0]? = some (call, n)) :
    ∃ op, past.operations[call]? = some op ∧ op.onlyReports = false ∧ past.Submitted n := by
  induction h with
  | nil => cases found
  | submitted asker able submitted =>
      cases found
      exact ⟨_, asker, able, submitted⟩
  | rewritten before last rewrote ih =>
      rcases getElem?_snoc found with old | ⟨none, _⟩
      · exact ih old
      · rw [List.eq_nil_of_length_eq_zero none.symm] at last
        cases last

/-- The writes of every record are accounted for. -/
def Accounted (policy : Retry.Policy) (past : Past) : Prop :=
  ∀ id, Chain policy past (past.writesTo id)

theorem Accounted.version_eq (h : past.Accounted policy) (found : (past.versions id)[i]? = some n) :
    n.version = i := by
  obtain ⟨call, wrote⟩ := getElem?_versions.mp found
  exact (h id).version_eq wrote

theorem Accounted.eq_of_version_eq (h : past.Accounted policy) (hx : x ∈ past.versions id)
    (hy : y ∈ past.versions id) (same : x.version = y.version) : x = y := by
  obtain ⟨i, hx⟩ := List.getElem?_of_mem hx
  obtain ⟨j, hy⟩ := List.getElem?_of_mem hy
  have first := h.version_eq hx
  have second := h.version_eq hy
  obtain rfl : i = j := by omega
  rw [hx] at hy
  exact Option.some.inj hy

theorem Accounted.quiet (h : past.Accounted policy) (none : e.write? = none) :
    Accounted policy (past ++ [e]) := by
  intro id
  rw [writesTo_snoc_of_none none]
  exact (h id).mono (List.prefix_append _ _)

theorem Accounted.wrote (h : past.Accounted policy) (wrote : e.write? = some (call, n))
    (chain : Chain policy past (past.writesTo n.id ++ [(call, n)])) :
    Accounted policy (past ++ [e]) := by
  intro id
  refine Chain.mono ?_ (List.prefix_append past [e])
  by_cases own : n.id = id
  · subst own
    rw [writesTo_snoc_self wrote]
    exact chain
  · rw [writesTo_snoc_of_ne wrote own]
    exact h id

/-- What has its warrant is accounted for: a write goes through only over the version it carries. -/
theorem accounted_of_lawful (h : past.Lawful (contract policy)) : past.Accounted policy := by
  induction h with
  | nil => exact fun _ => .nil
  | @other past e before other ih =>
      refine ih.quiet ?_
      cases e with
      | answered call r reply => exact absurd rfl (other call r reply)
      | _ => rfl
  | @answered past op call r reply before asker warrant truth ih =>
      cases r with
      | insert n =>
          match reply with
          | .error e => exact ih.quiet rfl
          | .ok () =>
              obtain ⟨able, submitted⟩ := warrant
              have fresh : past.writesTo n.id = [] := by
                exact List.map_eq_nil_iff.mp (List.getLast?_eq_none_iff.mp (truth rfl))
              refine ih.wrote rfl ?_
              rw [fresh]
              exact .submitted asker able submitted
      | update n =>
          match reply with
          | .error e => exact ih.quiet rfl
          | .ok stored =>
              obtain ⟨cur, time, seen, rewrite⟩ := warrant
              obtain ⟨old, latest, current, rfl⟩ := truth stored rfl
              have known := mem_versions_of_latest latest
              rw [rewrite.id_eq] at known
              have same : old = cur :=
                ih.eq_of_version_eq known seen.known (current.trans rewrite.version_eq)
              subst same
              obtain ⟨writer, last⟩ := latest_eq_some.mp latest
              exact ih.wrote rfl (.rewritten (ih n.id) last (.intro asker seen rewrite))
      | _ => exact ih.quiet rfl

/-- A version is a submission or was made of the version before it. -/
theorem Accounted.made (h : past.Accounted policy) (found : (past.versions id)[i]? = some n) :
    past.Submitted n ∨ ∃ j x call, i = j + 1 ∧ (past.versions id)[j]? = some x ∧
      past.Rewrote policy call x n := by
  obtain ⟨call, wrote⟩ := getElem?_versions.mp found
  cases i with
  | zero =>
      obtain ⟨op, _, _, submitted⟩ := (h id).first wrote
      exact .inl submitted
  | succ j =>
      obtain ⟨⟨writer, x⟩, before⟩ := exists_before wrote
      have rewrote := (h id).rewrote before wrote
      exact .inr ⟨j, x, call, rfl, getElem?_versions.mpr ⟨writer, before⟩, rewrote⟩

end Past
end Courier
