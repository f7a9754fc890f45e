import Courier.Proofs.Reports
import Courier.Proofs.WorkerWarrants

namespace Courier

namespace Past

/-- Whenever a call was answered, it was the last that had begun. -/
def InTurn (past : Past) : Prop :=
  ∀ before call r reply after, past = before ++ Happening.answered call r reply :: after →
    before.operations.length = call + 1

variable {past before between after : Past} {call first second : Nat} {r r' : Request}
  {reply : r.Reply} {reply' : r'.Reply}

theorem InTurn.le (h : past.InTurn) (split : past = before ++ .answered first r reply :: after)
    (later : .answered second r' reply' ∈ after) : first ≤ second := by
  obtain ⟨between, rest, rfl⟩ := List.append_of_mem later
  have early := h _ _ _ _ _ split
  have late := h (before ++ .answered first r reply :: between) second r' reply' rest
      (by simp [split])
  rw [operations_append, List.length_append] at late
  omega

theorem InTurn.only_between (h : past.InTurn)
    (split : past = before ++ .answered call r reply ::
      (between ++ .answered call r' reply' :: after))
    {other : Nat} {asked : Request} {told : asked.Reply}
    (mem : .answered other asked told ∈ between) :
    other = call := by
  have late := h.le split (List.mem_append_left _ mem)
  obtain ⟨part, rest, rfl⟩ := List.append_of_mem mem
  have split : past = (before ++ .answered call r reply :: part) ++
      .answered other asked told :: (rest ++ .answered call r' reply' :: after) := by simp [split]
  have early := h.le split (List.mem_append_right _ List.mem_cons_self)
  omega

theorem InTurn.earlier {before' after' : Past} (h : past.InTurn) (less : first < second)
    (split : past = before ++ .answered first r reply :: after)
    (split' : past = before' ++ .answered second r' reply' :: after') :
    ∃ between, after = between ++ .answered second r' reply' :: after' ∧
      before' = before ++ .answered first r reply :: between := by
  refine split_of_append (split'.symm.trans split) ?_
  intro mem
  rcases List.mem_cons.mp mem with same | later
  · cases same
    exact Nat.lt_irrefl _ less
  · exact absurd (h.le split' later) (Nat.not_le_of_lt less)

theorem answered_of_write {e : Happening} {n : Notification} (wrote : e.write? = some (call, n)) :
    ∃ r reply, e = .answered call r reply ∧ Conversation.written [⟨r, reply⟩] = [n] := by
  unfold Happening.write? at wrote
  split at wrote
  · cases wrote
    exact ⟨_, _, rfl, rfl⟩
  · cases wrote
    exact ⟨_, _, rfl, rfl⟩
  · cases wrote

theorem unwritten_of_append {more : Past}
    (silent : Conversation.written (Past.conversation (past ++ more) call) = []) :
    Conversation.written (past.conversation call) = [] := by
  rw [conversation_append, Conversation.written_append] at silent
  exact (List.append_eq_nil_iff.mp silent).1

theorem not_mem_writes {n : Notification}
    (silent : Conversation.written (past.conversation call) = []) :
    (call, n) ∉ past.writes := by
  intro mem
  obtain ⟨e, mem, wrote⟩ := List.mem_filterMap.mp mem
  obtain ⟨r, reply, rfl, written⟩ := answered_of_write wrote
  obtain ⟨told, more, whole⟩ := List.append_of_mem (mem_conversation.mpr mem)
  rw [whole, ← List.singleton_append, Conversation.written_append, Conversation.written_append,
    written] at silent
  simp at silent

theorem versions_eq_nil (only : ∀ other r reply, .answered other r reply ∈ past → other = call)
    (silent : Conversation.written (past.conversation call) = []) (id : Uuid) :
    past.versions id = [] := by
  have none : ∀ e ∈ past, e.write? = none := by
    intro e mem
    match wrote : e.write? with
    | none => rfl
    | some (other, n) =>
        obtain ⟨r, reply, rfl, _⟩ := answered_of_write wrote
        obtain rfl := only other r reply mem
        exact absurd (List.mem_filterMap.mpr ⟨_, mem, wrote⟩) (not_mem_writes silent)
  rw [versions, writesTo, writes, List.filterMap_eq_nil_iff.mpr none]
  rfl

end Past

namespace Pipeline

/-- A call begins when those before it are over. -/
def successive (s : Pipeline) : Move → Bool
  | .begin _ => s.isIdle
  | _ => true

variable {d : Deployment} {clock : Instant} {s : Pipeline}

/-- Only the last call that has begun is not over, and no call before it has been answered since it
began. -/
structure Successive (s : Pipeline) : Prop where
  last : ∀ (i : Nat) (call : Call), s.calls[i]? = some call → call.isOver = false →
    i + 1 = s.calls.length
  inTurn : s.past.InTurn

theorem Successive.aside (h : s.Successive) (b : Backend) {more : Past}
    (other : ∀ call r reply, .answered call r reply ∉ more) :
    Successive ⟨b, s.calls, s.past ++ more⟩ := by
  refine ⟨h.last, ?_⟩
  intro before call r reply after split
  change s.past ++ more = _ at split
  obtain ⟨rest, _, split⟩ := split_of_append split (other call r reply)
  exact h.inTurn before call r reply rest split

theorem Successive.begin (h : s.Successive) (idle : s.isIdle = true) (call : Call) :
    Successive { s with calls := s.calls ++ [call], past := s.past ++ [.began call.op] } := by
  have begun := h.aside s.backend fun _ _ _ (mem : _ ∈ [Happening.began call.op]) => by
    cases List.mem_singleton.mp mem
  refine ⟨?_, begun.inTurn⟩
  intro i other found going
  rcases getElem?_snoc found with old | ⟨rfl, _⟩
  · exact nomatch (isOver_of_isIdle idle old).symm.trans going
  · rw [List.length_append, List.length_singleton]

theorem Successive.advance (h : s.Successive) (known : s.past.operations = s.calls.map Call.op)
    {call : Nat} {op : Operation} {r : Request} {next : r.Reply → Prog op.Result}
    (asks : s.calls[call]? = some ⟨op, .ask r next⟩) (b : Backend) (reply : r.Reply) :
    Successive ⟨b, s.calls.set call ⟨op, (next reply).quiet⟩,
      s.past ++ [.answered call r reply]⟩ := by
  have current : call + 1 = s.calls.length := h.last call _ asks rfl
  constructor
  · intro i other found going
    rw [List.length_set]
    by_cases own : call = i
    · rw [← own]
      exact current
    · rw [List.getElem?_set_ne own] at found
      exact h.last i other found going
  · intro before caller r' reply' after split
    rcases snoc_eq_split split with ⟨_, rfl, same⟩ | ⟨rest, _, split⟩
    · cases same
      rw [known, List.length_map]
      exact current.symm
    · exact h.inTurn before caller r' reply' rest split

theorem successive_of_reachable (reached : Reachable d (fun s m => successive s m) clock s) :
    s.Successive := by
  induction reached with
  | initial =>
      refine ⟨fun _ _ found => (nomatch found), ?_⟩
      intro before call r reply after split
      exact absurd split.symm (List.append_ne_nil_of_right_ne_nil _ (List.cons_ne_nil _ _))
  | @step s next m reached may moved ih =>
      cases step_of_step? moved with
      | begin permitted => exact ih.begin may _
      | advance asks answered =>
          have known := (keeping_of_reachable (contract_kept d) reached).operations
          exact ih.advance known asks _ _
      | refused => exact ih
      | idle tried => exact ih.aside _ fun _ _ _ mem => nomatch mem
      | leased fresh tried =>
          exact ih.aside _ fun _ _ _ mem => by cases List.mem_singleton.mp mem
      | dropped tried =>
          refine ih.aside _ fun _ _ _ mem => ?_
          obtain ⟨job, _, same⟩ := List.mem_map.mp mem
          cases same
      | setClock => exact ⟨ih.last, ih.inTurn⟩
      | setAvailable => exact ⟨ih.last, ih.inTurn⟩

end Pipeline
end Courier
