import Courier.Proofs.Serialization

/-!
Calls at the same time that keep to a protocol. The protocol says what each call may do, in terms of
a view of the backends that also remembers who did what. A call that keeps to it, whatever the
others may do by it, comes to its end as it should in every run in which all calls keep to it.
-/
namespace Courier

/-- What there is to see of a run, and what the call with each number may do to it. -/
structure Protocol (V : Type) where
  real : V → Backend
  moves : Nat → V → V → Prop

namespace Protocol

variable {V α β : Type} (protocol : Protocol V)

/-- What the calls but that one may do. -/
def Others (me : Nat) (v v' : V) : Prop := ∃ i, i ≠ me ∧ protocol.moves i v v'

/-- Whatever the others do, the program does what the call with that number may do, does not break
off, and `post` holds in the end. -/
def Complies (me : Nat) : (α → V → Prop) → Prog α → V → Prop
  | post, .done a, v => post a v
  | _, .abort, _ => False
  | post, .log _ rest, v => Complies me post rest v
  | post, .ask r next, v => ∀ v', Relation.ReflTransGen (protocol.Others me) v v' → ∀ c step,
      (protocol.real v').answer c r = some step → ∃ v'', protocol.real v'' = step.backend ∧
        protocol.moves me v' v'' ∧ Complies me post (next step.reply) v''

variable {protocol} {me : Nat} {p : Prog α} {post : α → V → Prop} {v v' v₀ : V}

theorem Complies.bind {f : α → Prog β} {goal : β → V → Prop} (h : protocol.Complies me post p v)
    (rest : ∀ a v, post a v → protocol.Complies me goal (f a) v) :
    protocol.Complies me goal (p >>= f) v := by
  induction p generalizing v with
  | done a => exact rest a v h
  | abort => exact h
  | log e q ih => exact ih h
  | ask r next ih =>
      intro v' others c step answered
      obtain ⟨v'', real, moved, onward⟩ := h v' others c step answered
      exact ⟨v'', real, moved, ih _ onward⟩

theorem Complies.keeping {P : V → Prop} (step : ∀ i v v', P v → protocol.moves i v v' → P v')
    (h : protocol.Complies me post p v) (holds : P v) :
    protocol.Complies me (fun a v => post a v ∧ P v) p v := by
  induction p generalizing v with
  | done a => exact ⟨h, holds⟩
  | abort => exact h
  | log e rest ih => exact ih h holds
  | ask r next ih =>
      intro v' others c step' answered
      have holds := kept_of_steps (fun v v' holds ⟨i, _, moved⟩ =>
          step i v v' holds moved) holds others
      obtain ⟨v'', real, moved, onward⟩ := h v' others c step' answered
      exact ⟨v'', real, moved, ih _ onward (step me v' v'' holds moved)⟩

theorem Complies.quiet (h : protocol.Complies me post p v) :
    protocol.Complies me post p.quiet v := by
  induction p with
  | log e rest ih => exact ih h
  | _ => exact h

theorem Complies.later (stable : ∀ a v v', post a v → protocol.Others me v v' → post a v')
    (h : protocol.Complies me post p v) (others : Relation.ReflTransGen (protocol.Others me) v v') :
    protocol.Complies me post p v' := by
  induction p with
  | done a => exact kept_of_steps (stable a) h others
  | abort => exact h
  | log e rest ih => exact ih h
  | ask r next ih => exact fun v'' later => h v'' (others.trans later)

/-- What is asked of calls when they are over. -/
abbrev Closing (V : Type) := Nat → (op : Operation) → op.Result → V → Prop

/-- What is asked of a call when it is over, nobody else can undo. -/
def Stable (protocol : Protocol V) (closing : Closing V) : Prop :=
  ∀ me op result v v', closing me op result v → protocol.Others me v v' → closing me op result v'

def Passes (protocol : Protocol V) : Prop :=
  ∀ v t, ∃ v', protocol.real v' = { protocol.real v with clock := t } ∧ ∀ i, protocol.moves i v v'

/-- All calls have kept to the protocol, and what is left of them will keep to it. -/
structure Followed (protocol : Protocol V) (closing : Closing V) (v₀ : V) (s : Pipeline) (v : V) :
    Prop where
  real : protocol.real v = s.backend
  trace : ∀ me, s.calls.length ≤ me → Relation.ReflTransGen (protocol.Others me) v₀ v
  complies : ∀ (i : Nat) (call : Call), s.calls[i]? = some call →
    protocol.Complies i (closing i call.op) call.rest v

variable {closing : Closing V} {d : Deployment} {s : Pipeline} {op : Operation}

theorem Followed.begin {past : Past} (h : protocol.Followed closing v₀ s v)
    (complies : protocol.Complies s.calls.length (closing s.calls.length op) (op.program d) v) :
    protocol.Followed closing v₀ ⟨s.backend, s.calls ++ [⟨op, (op.program d).quiet⟩], past⟩ v := by
  refine ⟨h.real, fun me beyond => h.trace me ?_, fun i call found => ?_⟩
  · rw [List.length_append] at beyond
    omega
  · rcases getElem?_snoc found with old | ⟨rfl, rfl⟩
    · exact h.complies i call old
    · exact complies.quiet

theorem Followed.advance {past : Past} {call : Nat} {c : Choice} {r : Request}
    {next : r.Reply → Prog op.Result} {step : Backend.Step r.Reply}
    (stable : protocol.Stable closing) (h : protocol.Followed closing v₀ s v)
    (asks : s.calls[call]? = some ⟨op, .ask r next⟩) (answered : s.backend.answer c r = some step) :
    ∃ v', protocol.Followed closing v₀
      ⟨step.backend, s.calls.set call ⟨op, (next step.reply).quiet⟩, past⟩ v' := by
  obtain ⟨bound, _⟩ := List.getElem?_eq_some_iff.mp asks
  rw [← h.real] at answered
  obtain ⟨v', real, moved, onward⟩ := h.complies call _ asks v .refl c step answered
  refine ⟨v', real, fun me beyond => ?_, fun i other found => ?_⟩
  · rw [List.length_set] at beyond
    exact (h.trace me beyond).tail ⟨call, by omega, moved⟩
  · by_cases own : call = i
    · subst own
      rw [List.getElem?_set_self bound] at found
      cases found
      exact onward.quiet
    · rw [List.getElem?_set_ne own] at found
      exact (h.complies i other found).later (stable i other.op) (.single ⟨call, own, moved⟩)

theorem Followed.setClock {t : Instant} (stable : protocol.Stable closing)
    (passes : protocol.Passes) (h : protocol.Followed closing v₀ s v) :
    ∃ v', protocol.Followed closing v₀ { s with backend := { s.backend with clock := t } } v' := by
  obtain ⟨v', real, moved⟩ := passes v t
  have others (me : Nat) : protocol.Others me v v' := ⟨me + 1, Nat.succ_ne_self me, moved _⟩
  refine ⟨v', by rw [real, h.real], fun me beyond => (h.trace me beyond).tail (others me), ?_⟩
  exact fun i call found => (h.complies i call found).later (stable i call.op) (.single (others i))

end Protocol

namespace Pipeline

/-- Calls of some kind are made and time passes, and nothing else happens. -/
def timed (may : Operation → Bool) (_ : Pipeline) : Move → Bool
  | .begin op => may op
  | .advance _ _ | .setClock _ => true
  | _ => false

variable {V : Type} {protocol : Protocol V} {closing : Protocol.Closing V} {v₀ v : V}
  {d : Deployment} {may : Operation → Bool} {s final : Pipeline} {moves : List Move}

theorem followed_of_run (stable : protocol.Stable closing) (passes : protocol.Passes)
    (complies : ∀ me op v, may op = true → Relation.ReflTransGen (protocol.Others me) v₀ v →
      protocol.Complies me (closing me op) (op.program d) v)
    (h : protocol.Followed closing v₀ s v) (run : s.run? d (timed may) moves = some final) :
    ∃ v, protocol.Followed closing v₀ final v := by
  induction moves generalizing s v with
  | nil =>
      cases run
      exact ⟨v, h⟩
  | cons m rest ih =>
      simp only [run?] at run
      split at run
      · rename_i may
        obtain ⟨next, moved, run⟩ := Option.bind_eq_some_iff.mp run
        cases step_of_step? moved with
        | begin permitted =>
            have fresh := h.trace s.calls.length (Nat.le_refl _)
            exact ih (h.begin (complies _ _ v may fresh)) run
        | advance asks answered =>
            obtain ⟨v, h⟩ := h.advance stable asks answered
            exact ih h run
        | setClock =>
            obtain ⟨v, h⟩ := h.setClock stable passes
            exact ih h run
        | refused | idle | leased | dropped | setAvailable => cases may
      · cases run

theorem closed_of_idle (h : protocol.Followed closing v₀ s v) (idle : s.isIdle = true) {i : Nat}
    {call : Call} (found : s.calls[i]? = some call) :
    ∃ op result, call = ⟨op, .done result⟩ ∧ closing i op result v := by
  have complies := h.complies i call found
  have finished := isOver_of_isIdle idle found
  obtain ⟨op, rest⟩ := call
  cases rest with
  | done a => exact ⟨op, a, rfl, complies⟩
  | abort => exact complies.elim
  | log e rest => cases finished
  | ask r next => cases finished

end Pipeline
end Courier
