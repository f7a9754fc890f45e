import Courier.Proofs.Course
import Mathlib.Logic.Relation

/-!
Calls at the same time, and calls one after another. If each call takes effect at one moment between
its beginning and its end, then a run of many calls comes to the same as one in which each of them
is made alone, in the order in which they took effect. `Prog.Settles` says of a program that it has
such a moment, whatever the other calls do.
-/
namespace Courier

open Prog

/-- The calls are made one after another, nothing else goes on, and they end as they do here. -/
inductive Serially (d : Deployment) : List Call → Backend → Backend → Prop
  | nil {b : Backend} : Serially d [] b b
  | cons {call : Call} {calls : List Call} {b b' b'' : Backend} {conv : Conversation}
      (finished : call.isOver = true) (alone : (call.op.program d).Goes .still b conv call.rest b')
      (later : Serially d calls b' b'') : Serially d (call :: calls) b b''

theorem Serially.snoc {d : Deployment} {calls : List Call} {call : Call} {b b' b'' : Backend}
    {conv : Conversation} (h : Serially d calls b b') (finished : call.isOver = true)
    (alone : (call.op.program d).Goes .still b' conv call.rest b'') :
    Serially d (calls ++ [call]) b b'' := by
  induction h with
  | nil => exact .cons finished alone .nil
  | cons first begun _ ih => exact .cons first begun (ih alone)

theorem kept_of_steps {V : Type} {steps : V → V → Prop} {P : V → Prop}
    (step : ∀ v v', P v → steps v v' → P v') {v v' : V} (h : P v)
    (run : Relation.ReflTransGen steps v v') : P v' := by
  induction run with
  | refl => exact h
  | tail _ moved ih => exact step _ _ ih moved

/-- A view of a run: the backends as they are, and as they would be if the calls that have taken
effect so far had been made one after another; what each call may do to the view; and what is asked
of it when a call is over. -/
structure View (V : Type) where
  real : V → Backend
  serial : V → Backend
  moves : Nat → Operation → V → V → Prop
  closes : Nat → Call → V → Prop

namespace View

variable {V : Type} (view : View V)

/-- What the calls but that one may do. -/
def Others (me : Nat) (v v' : V) : Prop := ∃ i op, i ≠ me ∧ view.moves i op v v'

/-- The calls take effect one at a time: a call that has done so does not do it again. -/
inductive Effect (call : Operation) (p : Prog call.Result) (b : Backend) :
    Option (Prog call.Result) → Option (Prog call.Result) → Backend → Prop
  | none {effect : Option (Prog call.Result)} : Effect call p b effect effect b
  | now {final : Prog call.Result} {b' : Backend} {conv : Conversation}
      (finished : Call.isOver ⟨call, final⟩ = true) (alone : p.Goes .still b conv final b') :
      Effect call p b Option.none (some final) b'

/-- Whatever the others do, what is left of the call takes effect at one moment, unless it has done
so already, and ends as it would have ended then had it been alone. -/
def Settles (me : Nat) (op : Operation) (whole : Prog op.Result) :
    Prog op.Result → Option (Prog op.Result) → V → Prop
  | .done a, effect, v => effect = some (.done a) ∧ view.closes me ⟨op, .done a⟩ v
  | .abort, effect, v => effect = some .abort ∧ view.closes me ⟨op, .abort⟩ v
  | .log _ rest, effect, v => Settles me op whole rest effect v
  | .ask r next, effect, v => ∀ v', Relation.ReflTransGen (view.Others me) v v' → ∀ c step,
      (view.real v').answer c r = some step → ∃ v'' effect', view.real v'' = step.backend ∧
        view.moves me op v' v'' ∧
        Effect op whole (view.serial v') effect effect' (view.serial v'') ∧
        Settles me op whole (next step.reply) effect' v''

/-- Steps of calls that do these operations, by their numbers. -/
def Trace (ops : List Operation) : V → V → Prop :=
  Relation.ReflTransGen fun v v' => ∃ (i : Nat) (op : Operation),
    ops[i]? = some op ∧ view.moves i op v v'

/-- What is asked of a call when it is over, nobody else can undo. -/
def Stable : Prop :=
  ∀ me call v v', view.closes me call v → view.Others me v v' → view.closes me call v'

variable {view} {me : Nat} {op : Operation} {whole p : Prog op.Result}
  {effect : Option (Prog op.Result)} {v v' v₀ : V}

theorem settles_noteAll {es : List Event} (h : view.Settles me op whole p effect v) :
    view.Settles me op whole (noteAll es >>= fun _ => p) effect v := by
  induction es with
  | nil => exact h
  | cons e es ih => exact ih

theorem Settles.quiet (h : view.Settles me op whole p effect v) :
    view.Settles me op whole p.quiet effect v := by
  induction p with
  | log e rest ih => exact ih h
  | _ => exact h

theorem Settles.later (stable : view.Stable) (h : view.Settles me op whole p effect v)
    (others : Relation.ReflTransGen (view.Others me) v v') :
    view.Settles me op whole p effect v' := by
  have closed {call : Call} (closes : view.closes me call v) : view.closes me call v' :=
    kept_of_steps (stable me call) closes others
  induction p with
  | done a => exact ⟨h.1, closed h.2⟩
  | abort => exact ⟨h.1, closed h.2⟩
  | log e rest ih => exact ih h
  | ask r next ih => exact fun v'' later => h v'' (others.trans later)

theorem Settles.finished (h : view.Settles me op whole p effect v)
    (finished : Call.isOver ⟨op, p⟩ = true) :
    effect = some p ∧ view.closes me ⟨op, p⟩ v := by
  cases p with
  | done a => exact h
  | abort => exact h
  | log e rest => cases finished
  | ask r next => cases finished

/-- A call, and how it ends once it has taken effect. -/
structure Ticket where
  op : Operation
  effect : Option (Prog op.Result)

def Ticket.call? (ticket : Ticket) : Option Call :=
  ticket.effect.map fun final => ⟨ticket.op, final⟩

/-- The calls that have taken effect, one after another, and what is left to do of all calls. -/
structure Serialized (view : View V) (d : Deployment) (v₀ : V) (s : Pipeline) (v : V)
    (tickets : List Ticket) (order : List Call) : Prop where
  real : view.real v = s.backend
  trace : view.Trace (s.calls.map Call.op) v₀ v
  serial : Serially d order (view.serial v₀) (view.serial v)
  taken : order.Perm (tickets.filterMap Ticket.call?)
  length : tickets.length = s.calls.length
  settles : ∀ (i : Nat) (call : Call), s.calls[i]? = some call → ∃ effect,
    tickets[i]? = some ⟨call.op, effect⟩ ∧
      view.Settles i call.op (call.op.program d) call.rest effect v

theorem Trace.append {ops : List Operation} (h : view.Trace ops v₀ v) (more : List Operation) :
    view.Trace (ops ++ more) v₀ v := by
  refine Relation.ReflTransGen.mono ?_ _ _ h
  rintro a b ⟨i, op, found, moved⟩
  obtain ⟨bound, _⟩ := List.getElem?_eq_some_iff.mp found
  exact ⟨i, op, by rw [List.getElem?_append_left bound, found], moved⟩

theorem Trace.others {ops : List Operation} (h : view.Trace ops v₀ v) :
    Relation.ReflTransGen (view.Others ops.length) v₀ v := by
  refine Relation.ReflTransGen.mono ?_ _ _ h
  rintro a b ⟨i, op, found, moved⟩
  obtain ⟨bound, _⟩ := List.getElem?_eq_some_iff.mp found
  exact ⟨i, op, Nat.ne_of_lt bound, moved⟩

theorem set_same {α : Type} {l : List α} {i : Nat} {a : α} (found : l[i]? = some a) :
    l.set i a = l := by
  obtain ⟨bound, rfl⟩ := List.getElem?_eq_some_iff.mp found
  exact List.set_getElem_self bound

theorem map_op_set {calls : List Call} {i : Nat} {rest rest' : Prog op.Result}
    (found : calls[i]? = some ⟨op, rest⟩) :
    (calls.set i ⟨op, rest'⟩).map Call.op = calls.map Call.op := by
  rw [List.map_set]
  apply set_same
  simp [found]

theorem filterMap_set_perm {α β : Type} {f : α → Option β} {l : List α} {i : Nat} {a a' : α} {b : β}
    (found : l[i]? = some a) (before : f a = none) (after : f a' = some b) :
    ((l.set i a').filterMap f).Perm (b :: l.filterMap f) := by
  induction l generalizing i with
  | nil => cases found
  | cons x rest ih =>
      cases i with
      | zero =>
          cases found
          simp [before, after]
      | succ i =>
          have rest_perm := ih (i := i) found
          cases head : f x with
          | none => simpa [head] using rest_perm
          | some y => simpa [head] using (rest_perm.cons y).trans (.swap b y _)

variable {d : Deployment} {s : Pipeline} {tickets : List Ticket} {order : List Call}

theorem Serialized.begin {past : Past} (h : view.Serialized d v₀ s v tickets order)
    (settles : view.Settles s.calls.length op (op.program d) (op.program d) none v) :
    view.Serialized d v₀ ⟨s.backend, s.calls ++ [⟨op, (op.program d).quiet⟩], past⟩ v
      (tickets ++ [⟨op, none⟩]) order := by
  refine ⟨h.real, ?_, h.serial, ?_, by simp [h.length], ?_⟩
  · rw [List.map_append]
    exact h.trace.append _
  · rw [List.filterMap_append]
    simpa [List.filterMap_cons, Ticket.call?] using h.taken
  · intro i call found
    rcases getElem?_snoc found with old | ⟨rfl, rfl⟩
    · obtain ⟨effect, ticket, settles⟩ := h.settles i call old
      obtain ⟨bound, _⟩ := List.getElem?_eq_some_iff.mp ticket
      exact ⟨effect, by rw [List.getElem?_append_left bound, ticket], settles⟩
    · refine ⟨none, ?_, settles.quiet⟩
      rw [← h.length, List.getElem?_concat_length]

theorem Serialized.advance {past : Past} {call : Nat} {c : Choice} {r : Request}
    {next : r.Reply → Prog op.Result} {step : Backend.Step r.Reply} (stable : view.Stable)
    (h : view.Serialized d v₀ s v tickets order) (asks : s.calls[call]? = some ⟨op, .ask r next⟩)
    (answered : s.backend.answer c r = some step) :
    ∃ v' tickets' order', view.Serialized d v₀
      ⟨step.backend, s.calls.set call ⟨op, (next step.reply).quiet⟩, past⟩ v' tickets' order' := by
  obtain ⟨bound, _⟩ := List.getElem?_eq_some_iff.mp asks
  obtain ⟨effect, ticket, settles⟩ := h.settles call _ asks
  rw [← h.real] at answered
  obtain ⟨v', effect', real, moved, effects, settles⟩ := settles v .refl c step answered
  have trace : view.Trace ((s.calls.set call ⟨op, (next step.reply).quiet⟩).map Call.op) v₀ v' := by
    rw [map_op_set asks]
    refine h.trace.tail ⟨call, op, ?_, moved⟩
    simp [asks]
  have length : (tickets.set call ⟨op, effect'⟩).length =
      (s.calls.set call ⟨op, (next step.reply).quiet⟩).length := by
    simp [h.length]
  -- the call that moves may take effect now; all others have reckoned with its move
  have others : ∀ (i : Nat) (other : Call),
      (s.calls.set call ⟨op, (next step.reply).quiet⟩)[i]? = some other → ∃ effect,
        (tickets.set call ⟨op, effect'⟩)[i]? = some ⟨other.op, effect⟩ ∧
          view.Settles i other.op (other.op.program d) other.rest effect v' := by
    intro i other found
    by_cases own : call = i
    · subst own
      rw [List.getElem?_set_self bound] at found
      cases found
      refine ⟨effect', ?_, settles.quiet⟩
      rw [List.getElem?_set_self (by rw [h.length]; exact bound)]
    · rw [List.getElem?_set_ne own] at found
      obtain ⟨effect, ticket, settles⟩ := h.settles i other found
      refine ⟨effect, by rw [List.getElem?_set_ne own, ticket], ?_⟩
      exact settles.later stable (.single ⟨call, op, own, moved⟩)
  generalize serial : view.serial v' = b' at effects
  cases effects with
  | none =>
      refine ⟨v', _, order, real, trace, ?_, ?_, length, others⟩
      · rw [serial]
        exact h.serial
      · rw [set_same ticket]
        exact h.taken
  | @now final _ conv finished alone =>
      refine ⟨v', _, order ++ [⟨op, final⟩], real, trace, ?_, ?_, length, others⟩
      · rw [serial]
        exact h.serial.snoc finished alone
      apply (List.perm_append_singleton _ _).trans
      apply (h.taken.cons _).trans
      exact (filterMap_set_perm (f := Ticket.call?) ticket rfl rfl).symm

end View

namespace Pipeline

/-- Calls of some kind are made, and nothing else happens. -/
def calling (may : Operation → Bool) (_ : Pipeline) : Move → Bool
  | .begin op => may op
  | .advance _ _ => true
  | _ => false

def opening (b : Backend) : Pipeline := ⟨b, [], []⟩

variable {V : Type} {view : View V} {v₀ v : V} {d : Deployment} {may : Operation → Bool}
  {s final : Pipeline} {moves : List Move} {tickets : List View.Ticket} {order : List Call}

theorem serialized_of_run (stable : view.Stable)
    (settles : ∀ me op v, may op = true → Relation.ReflTransGen (view.Others me) v₀ v →
      view.Settles me op (op.program d) (op.program d) none v)
    (h : view.Serialized d v₀ s v tickets order)
    (run : s.run? d (calling may) moves = some final) :
    ∃ v tickets order, view.Serialized d v₀ final v tickets order := by
  induction moves generalizing s v tickets order with
  | nil =>
      cases run
      exact ⟨v, tickets, order, h⟩
  | cons m rest ih =>
      simp only [run?] at run
      split at run
      · rename_i may
        obtain ⟨next, moved, run⟩ := Option.bind_eq_some_iff.mp run
        cases step_of_step? moved with
        | begin permitted =>
            have others := h.trace.others
            rw [List.length_map] at others
            exact ih (h.begin (settles _ _ v may others)) run
        | advance asks answered =>
            obtain ⟨v, tickets, order, h⟩ := h.advance stable asks answered
            exact ih h run
        | refused | idle | leased | dropped | setClock | setAvailable => cases may
      · cases run

/-- When all calls are over, it is as if they had been made one after another. -/
theorem serializes (stable : view.Stable) (start : view.real v₀ = view.serial v₀)
    (settles : ∀ me op v, may op = true → Relation.ReflTransGen (view.Others me) v₀ v →
      view.Settles me op (op.program d) (op.program d) none v)
    (run : (opening (view.real v₀)).run? d (calling may) moves = some s) (idle : s.isIdle = true) :
    ∃ v order, view.real v = s.backend ∧ view.Trace (s.calls.map Call.op) v₀ v ∧
      Serially d order (view.real v₀) (view.serial v) ∧ order.Perm s.calls ∧
      ∀ (i : Nat) (call : Call), s.calls[i]? = some call → view.closes i call v := by
  have opened : view.Serialized d v₀ (opening (view.real v₀)) v₀ [] [] :=
    ⟨rfl, .refl, .nil, .nil, rfl, fun _ _ found => nomatch found⟩
  obtain ⟨v, tickets, order, h⟩ := serialized_of_run stable settles opened run
  have finished (i : Nat) (call : Call) (found : s.calls[i]? = some call) :
      tickets[i]? = some ⟨call.op, some call.rest⟩ ∧ view.closes i call v := by
    obtain ⟨effect, ticket, settles⟩ := h.settles i call found
    obtain ⟨rfl, closes⟩ := settles.finished (isOver_of_isIdle idle found)
    exact ⟨ticket, closes⟩
  have same : tickets = s.calls.map fun call => ⟨call.op, some call.rest⟩ := by
    apply List.ext_getElem?
    intro i
    rw [List.getElem?_map]
    cases found : s.calls[i]? with
    | some call => exact (finished i call found).1
    | none =>
        have beyond := List.getElem?_eq_none_iff.mp found
        rw [← h.length] at beyond
        exact List.getElem?_eq_none_iff.mpr beyond
  have taken := h.taken
  rw [same] at taken
  refine ⟨v, order, h.real, h.trace, start ▸ h.serial, ?_,
    fun i call found => (finished i call found).2⟩
  simpa [List.filterMap_map, Function.comp_def, View.Ticket.call?] using taken

end Pipeline
end Courier
