import Courier.Proofs.Course
import Courier.Proofs.StrandedJobs

/-!
Runs in which one call follows another: no call begins and no job is leased before the last call is
over. The clock goes forward, and the backends may be lost and come back at any time, so that any
single access in a call may fail. What holds of the backends at first, what every call keeps to and
what leases and the passing of time leave alone, holds at each moment of such a run.
-/
namespace Courier

/-- Nothing happens but that time passes and backends are lost or come back. -/
def Backend.Passes (b b' : Backend) : Prop :=
  ∃ (store queue : Bool) (t : Instant), b.clock ≤ t ∧ b' = { b with
    store := { b.store with available := store }
    queue := { b.queue with available := queue }
    clock := t }

theorem Backend.Passes.refl (b : Backend) : b.Passes b :=
  ⟨b.store.available, b.queue.available, b.clock, Instant.le_refl _, rfl⟩

theorem Backend.Passes.trans {b b' b'' : Backend} (first : b.Passes b') (second : b'.Passes b'') :
    b.Passes b'' := by
  obtain ⟨_, _, t, sooner, rfl⟩ := first
  obtain ⟨store, queue, t', later, rfl⟩ := second
  exact ⟨store, queue, t', Instant.le_trans sooner later, rfl⟩

variable {b b' : Backend}

theorem Backend.Passes.find? (h : b.Passes b') (id : Uuid) :
    b'.store.find? id = b.store.find? id := by
  obtain ⟨_, _, _, _, rfl⟩ := h
  rfl

theorem Backend.Passes.liveJobs (h : b.Passes b') : b'.queue.liveJobs = b.queue.liveJobs := by
  obtain ⟨_, _, _, _, rfl⟩ := h
  rfl

/-- A call among no others, while requests are answered only where the rule allows it. -/
def Surroundings.alone (rule : Backend → Request → Bool) : Surroundings :=
  ⟨Backend.Passes, fun b _ r => rule b r⟩

namespace Prog

variable {α β : Type} {rule : Backend → Request → Bool} {inv : Backend → Prop}
  {post post' : α → Backend → Prop} {goal : β → Backend → Prop} {b : Backend}

/-- Among no others, the program keeps the invariant, and its result is as stated if it has one. -/
def Preserves (rule : Backend → Request → Bool) (inv : Backend → Prop) (post : α → Backend → Prop)
    (p : Prog α) (b : Backend) : Prop :=
  p.Meets (.alone rule) inv (fun result _ b => inv b ∧ ∀ a, result = some a → post a b) b

theorem preserves_pure {a : α} (holds : inv b) (h : post a b) :
    (pure a : Prog α).Preserves rule inv post b := by
  refine ⟨holds, ?_⟩
  intro _ same
  cases same
  exact h

theorem preserves_abort (holds : inv b) : (abort : Prog α).Preserves rule inv post b :=
  ⟨holds, fun _ same => nomatch same⟩

theorem Preserves.bind {p : Prog α} {f : α → Prog β} (h : p.Preserves rule inv post b)
    (rest : ∀ a b, inv b → post a b → (f a).Preserves rule inv goal b) :
    (p >>= f).Preserves rule inv goal b := by
  apply Meets.bind h
  · intro _ _ ⟨holds, _⟩
    exact ⟨holds, fun _ same => nomatch same⟩
  · intro a _ b ⟨holds, h⟩
    exact rest a b holds (h a rfl)

theorem preserves_note {e : Event} {f : Unit → Prog α} (h : (f ()).Preserves rule inv post b) :
    (note e >>= f).Preserves rule inv post b := meets_note h

theorem preserves_noteAll {es : List Event} {f : Unit → Prog α}
    (h : (f ()).Preserves rule inv post b) : (noteAll es >>= f).Preserves rule inv post b :=
  meets_noteAll h

theorem preserves_orAbort {o : Option β} {f : β → Prog α} (holds : inv b)
    (h : ∀ a, o = some a → (f a).Preserves rule inv post b) :
    (orAbort o >>= f).Preserves rule inv post b :=
  meets_orAbort (fun _ => ⟨holds, fun _ same => nomatch same⟩) h

end Prog

/-- Notifications are created and reset, outcomes are reported, and workers work on their jobs. -/
def Operation.isRoutine : Operation → Bool
  | .create _ | .record _ _ _ | .resetFailed _ | .process _ => true
  | _ => false

namespace Pipeline

/-- One thing after another, and the clock goes forward. -/
def inTurn (s : Pipeline) : Move → Bool
  | .begin op => op.isRoutine && s.isIdle
  | .lease _ _ => s.isIdle
  | .setClock t => decide (s.backend.clock ≤ t)
  | _ => true

/-- A request that is answered is one that the rule allows. -/
def heeds (rule : Backend → Request → Bool) (s : Pipeline) : Move → Bool
  | .advance call _ =>
    match s.calls[call]? with
    | some ⟨_, .ask r _⟩ => rule s.backend r
    | _ => true
  | _ => true

def orderly (rule : Backend → Request → Bool) (s : Pipeline) (m : Move) : Bool :=
  s.inTurn m && s.heeds rule m

variable {d : Deployment} {rule : Backend → Request → Bool} {inv : Backend → Prop}
  {s next : Pipeline} {m : Move} {clock : Instant}

/-- The invariant holds, at most one call is not over, and that one will keep the invariant. -/
structure Attended (rule : Backend → Request → Bool) (inv : Backend → Prop) (s : Pipeline) :
    Prop where
  holds : inv s.backend
  single : ∀ (i j : Nat) (call other : Call), s.calls[i]? = some call → s.calls[j]? = some other →
    call.isOver = false → other.isOver = false → i = j
  meets : ∀ (i : Nat) (call : Call), s.calls[i]? = some call →
    call.rest.Meets (.alone rule) inv (fun _ _ _ => True) s.backend

theorem meets_of_isOver {call : Call} (finished : call.isOver = true) (b : Backend) :
    call.rest.Meets (.alone rule) inv (fun _ _ _ => True) b := by
  unfold Call.isOver at finished
  split at finished
  · rename_i done
    rw [done]
    trivial
  · rename_i abort
    rw [abort]
    trivial
  · cases finished

theorem Attended.idle {b : Backend} {past : Past} (h : s.Attended rule inv) (idle : s.isIdle = true)
    (holds : inv b) : Attended rule inv ⟨b, s.calls, past⟩ := by
  refine ⟨holds, h.single, ?_⟩
  intro i call found
  exact meets_of_isOver (isOver_of_isIdle idle found) b

theorem Attended.passes {b : Backend} (h : s.Attended rule inv) (holds : inv b)
    (passes : s.backend.Passes b) : Attended rule inv { s with backend := b } := by
  refine ⟨holds, h.single, ?_⟩
  intro i call found
  exact (h.meets i call found).later (fun _ later => passes.trans later) fun _ _ _ => trivial

theorem Attended.begin {op : Operation} {past : Past} (h : s.Attended rule inv)
    (idle : s.isIdle = true)
    (meets : (op.program d).Meets (.alone rule) inv (fun _ _ _ => True) s.backend) :
    Attended rule inv
      ⟨s.backend, s.calls ++ [⟨op, (op.program d).quiet⟩], past⟩ := by
  have place {i : Nat} {call : Call}
      (found : (s.calls ++ [⟨op, (op.program d).quiet⟩])[i]? = some call) :
      call.isOver = true ∨ (i = s.calls.length ∧ call = ⟨op, (op.program d).quiet⟩) := by
    exact (getElem?_snoc found).imp_left (isOver_of_isIdle idle)
  refine ⟨h.holds, ?_, ?_⟩
  · intro i j call other first second going going'
    rcases place first with finished | ⟨rfl, _⟩
    · simp [finished] at going
    · rcases place second with finished | ⟨rfl, _⟩
      · simp [finished] at going'
      · rfl
  · intro i call found
    rcases place found with finished | ⟨_, rfl⟩
    · exact meets_of_isOver finished _
    · exact meets.quiet

theorem Attended.advance {call : Nat} {c : Choice} {op : Operation} {r : Request}
    {rest : r.Reply → Prog op.Result} {step : Backend.Step r.Reply} {past : Past}
    (h : s.Attended rule inv) (asks : s.calls[call]? = some ⟨op, .ask r rest⟩)
    (allowed : rule s.backend r = true) (answered : s.backend.answer c r = some step) :
    Attended rule inv
      ⟨step.backend, s.calls.set call ⟨op, (rest step.reply).quiet⟩, past⟩ := by
  obtain ⟨bound, _⟩ := List.getElem?_eq_some_iff.mp asks
  obtain ⟨holds, onward⟩ := h.meets call _ asks s.backend c step (.refl _) allowed answered
  have finished {i : Nat} {other : Call} (apart : call ≠ i)
      (found : (s.calls.set call ⟨op, (rest step.reply).quiet⟩)[i]? = some other) :
      other.isOver = true := by
    rw [List.getElem?_set_ne apart] at found
    by_contra going
    exact apart (h.single call i _ other asks found rfl (by simpa using going))
  refine ⟨holds, ?_, ?_⟩
  · intro i j first second found found' going going'
    have same {k : Nat} {other : Call} (going : other.isOver = false)
        (found : (s.calls.set call ⟨op, (rest step.reply).quiet⟩)[k]? = some other) : call = k := by
      by_contra apart
      simp [finished apart found] at going
    rw [← same going found, ← same going' found']
  · intro i other found
    by_cases own : call = i
    · subst own
      rw [List.getElem?_set_self bound] at found
      cases found
      exact onward.quiet
    · exact meets_of_isOver (finished own found) _

/-- What every routine call keeps to, and leases and the passing of time leave alone, holds at each
moment. -/
theorem holds_of_orderly (initially : inv (initial clock).backend)
    (passes : ∀ {b b'}, inv b → b.Passes b' → inv b')
    (leases : ∀ {b} leaseFor token, inv b →
      inv { b with queue := (b.queue.tryLease b.clock leaseFor token).2 })
    (calls : ∀ {op : Operation} {b}, op.isRoutine = true → inv b →
      (op.program d).Preserves rule inv (fun _ _ => True) b)
    (reached : Reachable d (fun s m => orderly rule s m) clock s) :
    inv s.backend := by
  suffices attended : s.Attended rule inv from attended.holds
  induction reached with
  | initial =>
      exact ⟨initially, fun _ _ _ _ found => (nomatch found), fun _ _ found => (nomatch found)⟩
  | @step s next m _ may moved ih =>
      obtain ⟨inTurn, heeds⟩ := Bool.and_eq_true_iff.mp may
      -- leases are tried between calls, so that no call has to reckon with them
      have leased {leaseFor : Duration} {token : Uuid} {attempt : Queue.Attempt} {queue : Queue}
          (happened : Past) (idle : s.isIdle = true)
          (tried : s.backend.queue.tryLease s.backend.clock leaseFor token = (attempt, queue)) :
          (s.leasing queue happened).Attended rule inv := by
        have holds := leases leaseFor token ih.holds
        rw [tried] at holds
        exact ih.idle idle holds
      cases step_of_step? moved with
      | begin permitted =>
          obtain ⟨routine, idle⟩ := Bool.and_eq_true_iff.mp inTurn
          exact ih.begin idle (Prog.Meets.mono (calls routine ih.holds) fun _ _ _ _ => trivial)
      | advance asks answered =>
          simp only [Pipeline.heeds, asks] at heeds
          exact ih.advance asks heeds answered
      | refused => exact ih
      | idle tried => exact leased [] inTurn tried
      | leased fresh tried => exact leased _ inTurn tried
      | dropped tried => exact leased _ inTurn tried
      | @setClock t =>
          have passed : s.backend.Passes { s.backend with clock := t } :=
            ⟨s.backend.store.available, s.backend.queue.available, t, of_decide_eq_true inTurn, rfl⟩
          exact ih.passes (passes ih.holds passed) passed
      | @setAvailable store queue =>
          have passed : s.backend.Passes { s.backend with
              store := { s.backend.store with available := store }
              queue := { s.backend.queue with available := queue } } :=
            ⟨store, queue, s.backend.clock, Instant.le_refl _, rfl⟩
          exact ih.passes (passes ih.holds passed) passed

end Pipeline
end Courier
