import Courier.Proofs.Compliance
import Courier.Proofs.RecoveryAccounts
import Courier.Proofs.Stages

namespace Courier

def Request.Served (r : Request) : Prop := ∀ b : Backend, ∃ c step, b.answer c r = some step

theorem Request.served_of_inward {r : Request} (inward : r.isInward = true) : r.Served := by
  intro b
  obtain ⟨step, answered⟩ := b.answers Pipeline.Sample.choice inward
  exact ⟨_, step, answered⟩

namespace Prog

variable {α : Type} {p : Prog α} {kind : Request → Prop}

@[simp] theorem quiet_quiet (p : Prog α) : p.quiet.quiet = p.quiet := by
  induction p with
  | log e rest ih => exact ih
  | _ => rfl

theorem Only.quiet (only : p.Only kind) : p.quiet.Only kind := by
  induction p with
  | log e rest ih => exact ih only
  | _ => exact only

end Prog

/-- What is left of the call asks only for what there is an answer to, and it is at its next
request. -/
structure Call.Live (call : Call) : Prop where
  served : call.rest.Only Request.Served
  quiet : call.rest.quiet = call.rest

namespace Pipeline

variable {d : Deployment} {allowed : Pipeline → Move → Bool} {may : Operation → Bool}
  {s t : Pipeline} {moves more : List Move} {op : Operation} {i : Nat} {m : Move}

theorem run?_append : s.run? d allowed (moves ++ more) =
    (s.run? d allowed moves).bind fun t => t.run? d allowed more := by
  induction moves generalizing s with
  | nil => rfl
  | cons m rest ih =>
      simp only [List.cons_append, run?]
      split
      · cases s.step? d m with
        | none => rfl
        | some next => exact ih
      · rfl

/-- A call can be brought to its end by advancing it alone. -/
theorem run_to_end (may : ∀ s c, allowed s (.advance i c) = true) (p : Prog op.Result)
    (served : p.Only Request.Served) (found : s.calls[i]? = some ⟨op, p.quiet⟩) :
    ∃ moves t call, s.run? d allowed moves = some t ∧ t.calls = s.calls.set i call ∧
      call.isOver = true := by
  induction p generalizing s with
  | done a => exact ⟨[], s, _, rfl, (View.set_same found).symm, rfl⟩
  | abort => exact ⟨[], s, _, rfl, (View.set_same found).symm, rfl⟩
  | log e rest ih => exact ih served found
  | ask r next ih =>
      have found : s.calls[i]? = some ⟨op, .ask r next⟩ := found
      obtain ⟨bound, _⟩ := List.getElem?_eq_some_iff.mp found
      obtain ⟨c, step, answered⟩ := served.1 s.backend
      let s' : Pipeline := ⟨step.backend, s.calls.set i ⟨op, (next step.reply).quiet⟩,
        s.past ++ [.answered i r step.reply]⟩
      have moved : s.step? d (.advance i c) = some s' := by
        simp only [step?, advance?, found, answered, Option.map_some]
        rfl
      have own : s'.calls[i]? = some ⟨op, (next step.reply).quiet⟩ := List.getElem?_set_self bound
      obtain ⟨moves, t, call, run, calls, finished⟩ := ih step.reply (served.2 step.reply) own
      refine ⟨.advance i c :: moves, t, call, ?_, ?_, finished⟩
      · simp only [run?, may, if_true, moved, Option.bind_some, run]
      · simpa [s'] using calls

/-- With some calls over and all others live, the others can be brought to their ends one after
another. -/
theorem run_to_idle (may : ∀ s i c, allowed s (.advance i c) = true) {before after : List Call}
    (split : s.calls = before ++ after) (finished : ∀ call ∈ before, call.isOver = true)
    (live : ∀ call ∈ after, call.Live) :
    ∃ moves t, s.run? d allowed moves = some t ∧ t.calls.length = s.calls.length ∧
      t.isIdle = true := by
  induction after generalizing s before with
  | nil =>
      refine ⟨[], s, rfl, rfl, List.all_eq_true.mpr fun call mem => finished call ?_⟩
      simpa [split] using mem
  | cons call rest ih =>
      obtain ⟨served, quiet⟩ := live call List.mem_cons_self
      have found : s.calls[before.length]? = some ⟨call.op, call.rest.quiet⟩ := by
        simp [split, quiet]
      obtain ⟨moves, t, ended, run, calls, closed⟩ :=
        run_to_end (d := d) (fun s c => may s before.length c) call.rest served found
      have split' : t.calls = (before ++ [ended]) ++ rest := by simp [calls, split]
      obtain ⟨more, u, onward, length, idle⟩ := ih split'
        (fun other mem => (List.mem_append.mp mem).elim (finished other) fun new =>
          List.mem_singleton.mp new ▸ closed)
        fun other mem => live other (List.mem_cons_of_mem call mem)
      refine ⟨moves ++ more, u, ?_, by simp [length, calls], idle⟩
      rw [run?_append, run]
      exact onward

/-- Calls stay live, and so are those that begin if their programs ask only for what there is an
answer to. -/
theorem Step.live (h : Step d s m t)
    (served : ∀ op, m = .begin op → (op.program d).Only Request.Served)
    (live : ∀ call ∈ s.calls, call.Live) : ∀ call ∈ t.calls, call.Live := by
  cases h with
  | begin permitted =>
      intro call mem
      rcases List.mem_append.mp mem with old | new
      · exact live call old
      · obtain rfl := List.mem_singleton.mp new
        exact ⟨(served _ rfl).quiet, Prog.quiet_quiet _⟩
  | advance asks answered =>
      intro call mem
      rcases List.mem_or_eq_of_mem_set mem with old | rfl
      · exact live call old
      · have asker := live _ (List.mem_of_getElem? asks)
        exact ⟨(asker.served.2 _).quiet, Prog.quiet_quiet _⟩
  | refused | idle | leased | dropped | setClock | setAvailable => exact live

theorem live_of_run (served : ∀ op, may op = true → (op.program d).Only Request.Served)
    (live : ∀ call ∈ s.calls, call.Live) (run : s.run? d (timed may) moves = some t) :
    ∀ call ∈ t.calls, call.Live := by
  induction moves generalizing s with
  | nil =>
      cases run
      exact live
  | cons m rest ih =>
      simp only [run?] at run
      split at run
      · rename_i permitted
        obtain ⟨next, moved, run⟩ := Option.bind_eq_some_iff.mp run
        refine ih ((step_of_step? moved).live (fun op began => ?_) live) run
        subst began
        exact served op permitted
      · cases run

/-- Whatever calls have been made so far of a kind that asks only for what there is an answer to,
all of them can be brought to their ends. -/
theorem run_can_end {b : Backend}
    (served : ∀ op, may op = true → (op.program d).Only Request.Served)
    (run : (opening b).run? d (timed may) moves = some t) :
    ∃ more u, t.run? d (timed may) more = some u ∧ u.calls.length = t.calls.length ∧
      u.isIdle = true := by
  have live := live_of_run served (List.forall_mem_nil _) run
  exact run_to_idle (fun _ _ _ => rfl) (List.nil_append _).symm (List.forall_mem_nil _) live

end Pipeline

namespace Service

theorem enqueue_inward (n : Notification) : Inward (enqueue n) := by
  unfold enqueue
  split
  · trivial
  · trivial
  · trivial
  · refine ⟨rfl, fun time => ⟨rfl, fun reply => ?_⟩⟩
    cases reply with
    | error e => trivial
    | ok _ => exact markQueuedIn_inward writeTries n.id

theorem resetIn_inward (tries : Nat) (id : Uuid) : Inward (resetIn tries id) := by
  induction tries with
  | zero => trivial
  | succ tries ih =>
      apply (get_inward id).bind
      intro result
      cases result with
      | error e => trivial
      | ok current =>
          by_cases failed : current.status = .failed
          · simp only [if_pos failed]
            refine ⟨rfl, fun time => ⟨rfl, fun reply => ?_⟩⟩
            cases reply with
            | ok stored => trivial
            | error e =>
                show Inward (if e.isConflict = true then _ else _)
                split
                · exact ih
                · trivial
          · simp only [if_neg failed]
            trivial

theorem resetFailed_inward (id : Uuid) : Inward (resetFailed id) := by
  apply (resetIn_inward writeTries id).bind
  intro result
  cases result with
  | error e => trivial
  | ok reset =>
      apply (enqueue_inward reset.2).bind
      intro result
      cases result with
      | ok queued => trivial
      | error e =>
          by_cases refused : e.isQueueUnavailable = true
          · simp only [if_pos refused]
            refine ⟨rfl, fun time => ⟨rfl, fun reply => ?_⟩⟩
            cases reply <;> trivial
          · simp only [if_neg refused]
            trivial

end Service

namespace Recovery

theorem resetAll_inward (ids : List Uuid) (queued errors : Nat) :
    Service.Inward (resetAll ids queued errors) := by
  induction ids generalizing queued errors with
  | nil => trivial
  | cons id rest ih =>
      apply (Service.resetFailed_inward id).bind
      intro result
      cases result with
      | ok n => exact ih (queued + 1) errors
      | error e => exact ih queued (errors + 1)

theorem retryFailed_served (limit : Option Nat) : (retryFailed limit).Only Request.Served := by
  refine ⟨fun b => ⟨Pipeline.Sample.choice, _, rfl⟩, fun reply => ?_⟩
  cases reply with
  | error e => trivial
  | ok failed =>
      have resets := resetAll_inward (batchOf limit failed) 0 0
      exact (resets.mono fun _ => Request.served_of_inward).bind fun _ => trivial

end Recovery
end Courier
