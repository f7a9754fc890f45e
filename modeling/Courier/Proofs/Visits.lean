import Courier.Proofs.FalteringRecovery
import Courier.Proofs.Serving

/-!
One web request on its own, from its first access to its last. Between any two accesses time passes,
and the store and the queue are lost or come back; rate buckets, remote services and probes answer
what they like. `Prog.Ends` is one complete course that a program may take.
-/
namespace Courier

open Prog

/-- The request is one that is not for the store, the queue or the clock of the process. -/
def Request.isForeign : Request → Bool
  | .wallSeconds | .remembered _ | .probe _ _ | .settle _ _ | .acquire _ _ _ | .introspect _ => true
  | _ => false

theorem Request.not_isForeign_of_isWork {r : Request} (work : r.isWork = true) :
    r.isForeign = false := by
  cases r with
  | wallSeconds | remembered | probe | settle | acquire | introspect => cases work
  | _ => rfl

theorem Request.isForeign_of_isCheck {r : Request} (check : r.isCheck = true) :
    r.isForeign = true := by
  cases r with
  | remembered | probe | settle => rfl
  | _ => cases check

/-- Whatever the answer, nothing has been written. -/
def Request.isLook (r : Request) : Bool :=
  r.isForeign ||
    match r with
    | .now | .freshId | .draw _ | .get _ | .scan _ | .depth => true
    | _ => false

theorem Request.isLook_of_isCheck {r : Request} (check : r.isCheck = true) : r.isLook = true :=
  Bool.or_eq_true_iff.mpr (.inl (Request.isForeign_of_isCheck check))

namespace Backend

variable {b between b' : Backend} {c : Choice}

/-- The store and the queue hold what they held before. -/
def Untouched (b b' : Backend) : Prop :=
  ∃ storeUp queueUp clock, b' = b.shifted storeUp queueUp clock

theorem Untouched.refl (b : Backend) : b.Untouched b := ⟨_, _, _, rfl⟩

theorem Untouched.trans (first : b.Untouched between) (second : between.Untouched b') :
    b.Untouched b' := by
  obtain ⟨_, _, _, rfl⟩ := first
  obtain ⟨_, _, _, rfl⟩ := second
  exact ⟨_, _, _, rfl⟩

theorem answer_foreign {r : Request} (b : Backend) (c : Choice) (foreign : r.isForeign = true) :
    b.answer c r = none := by
  cases r with
  | wallSeconds | remembered | probe | settle | acquire | introspect => rfl
  | _ => cases foreign

theorem backend_of_look {r : Request} {step : Step r.Reply} (look : r.isLook = true)
    (answered : b.answer c r = some step) : step.backend = b := by
  cases r with
  | now | freshId | get | scan | depth =>
      cases answered
      rfl
  | draw bound =>
      obtain ⟨_, answered⟩ := Option.ite_none_right_eq_some.mp answered
      cases answered
      rfl
  | wallSeconds | remembered | probe | settle | acquire | introspect => cases answered
  | _ => cases look

theorem backend_of_insert_error {n : Notification} {step : Step (Except Error Unit)} {e : Error}
    (answered : b.answer c (.insert n) = some step) (failed : step.reply = .error e) :
    step.backend = b := by
  cases answered
  simp only [Backend.insert] at failed ⊢
  split at failed
  · cases failed
  · rfl

theorem backend_of_update_error {n : Notification} {step : Step (Except Error Notification)}
    {e : Error} (answered : b.answer c (.update n) = some step) (failed : step.reply = .error e) :
    step.backend = b := by
  cases answered
  simp only [Backend.update] at failed ⊢
  split at failed
  · cases failed
  · rfl

end Backend

namespace Prog

variable {α β : Type} {p : Prog α} {f : α → Prog β} {b b' : Backend} {conv : Conversation}
  {outcome : Option α} {kind : Request → Prop}

/-- The program may have that conversation, from the backends as they were to the backends as they
are, and come to that result, or break off and come to none. -/
inductive Ends : Prog α → Backend → Conversation → Option α → Backend → Prop
  | done {a : α} {b : Backend} : Ends (.done a) b [] (some a) b
  | abort {b : Backend} : Ends .abort b [] none b
  | log {e : Event} {rest : Prog α} {b b' : Backend} {conv : Conversation} {outcome : Option α}
      (onward : Ends rest b conv outcome b') : Ends (.log e rest) b conv outcome b'
  | own {r : Request} {next : r.Reply → Prog α} {b before b' : Backend} {c : Choice}
      {step : Backend.Step r.Reply} {conv : Conversation} {outcome : Option α}
      (meanwhile : b.Untouched before) (answered : before.answer c r = some step)
      (onward : Ends (next step.reply) step.backend conv outcome b') :
      Ends (.ask r next) b (⟨r, step.reply⟩ :: conv) outcome b'
  | foreign {r : Request} {next : r.Reply → Prog α} {b b' : Backend} {conv : Conversation}
      {outcome : Option α} (foreign : r.isForeign = true) (reply : r.Reply)
      (onward : Ends (next reply) b conv outcome b') :
      Ends (.ask r next) b (⟨r, reply⟩ :: conv) outcome b'

theorem Ends.of_bind {result : Option β} (run : (p >>= f).Ends b conv result b') :
    (result = none ∧ p.Ends b conv none b') ∨
      ∃ a first rest between, conv = first ++ rest ∧ p.Ends b first (some a) between ∧
        (f a).Ends between rest result b' := by
  induction p generalizing b conv with
  | done a => exact .inr ⟨a, [], conv, b, rfl, .done, run⟩
  | abort =>
      cases run with
      | abort => exact .inl ⟨rfl, .abort⟩
  | log e q ih =>
      cases run with
      | log onward =>
          rcases ih onward with ⟨missing, broken⟩ | ⟨a, first, rest, between, split, before, after⟩
          · exact .inl ⟨missing, .log broken⟩
          · exact .inr ⟨a, first, rest, between, split, .log before, after⟩
  | ask r next ih =>
      cases run with
      | own meanwhile answered onward =>
          rcases ih _ onward with ⟨missing, broken⟩ | ⟨a, first, rest, between, rfl, before, after⟩
          · exact .inl ⟨missing, .own meanwhile answered broken⟩
          · exact .inr ⟨a, _, rest, between, rfl, .own meanwhile answered before, after⟩
      | foreign isForeign reply onward =>
          rcases ih _ onward with ⟨missing, broken⟩ | ⟨a, first, rest, between, rfl, before, after⟩
          · exact .inl ⟨missing, .foreign isForeign reply broken⟩
          · exact .inr ⟨a, _, rest, between, rfl, .foreign isForeign reply before, after⟩

theorem Ends.bind_of_none (run : p.Ends b conv outcome b') (broken : outcome = none) :
    (p >>= f).Ends b conv none b' := by
  induction run with
  | done => cases broken
  | abort => exact .abort
  | log onward ih => exact .log (ih broken)
  | own meanwhile answered onward ih => exact .own meanwhile answered (ih broken)
  | foreign isForeign reply onward ih => exact .foreign isForeign reply (ih broken)

theorem Ends.of_foreign {r : Request} {next : r.Reply → Prog α} (isForeign : r.isForeign = true)
    (run : (ask r next).Ends b conv outcome b') :
    ∃ reply rest, conv = ⟨r, reply⟩ :: rest ∧ (next reply).Ends b rest outcome b' := by
  cases run with
  | own meanwhile answered onward =>
      rw [Backend.answer_foreign _ _ isForeign] at answered
      cases answered
  | foreign _ reply onward => exact ⟨reply, _, rfl, onward⟩

theorem Ends.now {next : Instant → Prog α} (onward : (next b.clock).Ends b conv outcome b') :
    (ask .now next).Ends b (⟨.now, b.clock⟩ :: conv) outcome b' := by
  have answered : b.answer Pipeline.Sample.choice .now = some { reply := b.clock, backend := b } :=
    rfl
  exact .own (.refl b) answered onward

theorem Ends.of_now {next : Instant → Prog α} (run : (ask .now next).Ends b conv outcome b') :
    ∃ (time : Instant) (rest : Conversation) (before : Backend),
      conv = ⟨.now, time⟩ :: rest ∧ (next time).Ends before rest outcome b' := by
  cases run with
  | own meanwhile answered onward =>
      cases answered
      exact ⟨_, _, _, rfl, onward⟩
  | foreign isForeign reply onward => cases isForeign

theorem Ends.of_orAbort {o : Option β} {g : β → Prog α}
    (run : (orAbort o >>= g).Ends b conv outcome b') :
    (o = none ∧ conv = [] ∧ outcome = none) ∨ ∃ a, o = some a ∧ (g a).Ends b conv outcome b' := by
  cases o with
  | none =>
      cases run
      exact .inl ⟨rfl, rfl, rfl⟩
  | some a => exact .inr ⟨a, rfl, run⟩

theorem Ends.of_noteAll {es : List Event} {g : Unit → Prog α}
    (run : (noteAll es >>= g).Ends b conv outcome b') : (g ()).Ends b conv outcome b' := by
  induction es with
  | nil => exact run
  | cons e es ih =>
      cases run with
      | log onward => exact ih onward

theorem Ends.untouched (run : p.Ends b conv outcome b') (only : p.Only fun r => r.isLook = true) :
    b.Untouched b' := by
  induction run with
  | done => exact .refl _
  | abort => exact .refl _
  | log onward ih => exact ih only
  | own meanwhile answered onward ih =>
      have same := Backend.backend_of_look only.1 answered
      exact meanwhile.trans (same ▸ ih (only.2 _))
  | foreign isForeign reply onward ih => exact ih (only.2 reply)

theorem Ends.said (run : p.Ends b conv outcome b') (only : p.Only kind) : ∀ x ∈ conv, kind x.1 := by
  induction run with
  | done => exact List.forall_mem_nil _
  | abort => exact List.forall_mem_nil _
  | log onward ih => exact ih only
  | own meanwhile answered onward ih => exact List.forall_mem_cons.mpr ⟨only.1, ih (only.2 _)⟩
  | foreign isForeign reply onward ih => exact List.forall_mem_cons.mpr ⟨only.1, ih (only.2 reply)⟩

/-- What holds at the end of every course while store and queue come and go holds here too, of a
program that asks nobody else. -/
theorem Ends.meets {inv : Backend → Prop} {post : Option α → Conversation → Backend → Prop}
    (run : p.Ends b conv outcome b') (home : p.Only fun r => r.isForeign = false)
    (h : p.Meets .faltering inv post b) : post outcome conv b' := by
  induction run generalizing post with
  | done => exact h
  | abort => exact h
  | log onward ih => exact ih home h
  | own meanwhile answered onward ih =>
      exact ih (home.2 _) (h _ _ _ meanwhile trivial answered).2
  | foreign isForeign reply onward ih => exact absurd (home.1.symm.trans isForeign) (by decide)

theorem falters_ask {r : Request} {f : r.Reply → Prog α} {told : Conversation}
    {post : Option α → Conversation → Backend → Prop}
    (h : ∀ before c step, b.Untouched before → before.answer c r = some step →
      (f step.reply).Falters (told ++ [⟨r, step.reply⟩]) post step.backend) :
    (ask r f).Falters told post b := by
  apply onward_ask
  intro before c step meanwhile _ answered
  exact ⟨trivial, h before c step meanwhile answered⟩

theorem reply_of_foreign {r : Request} (foreign : r.isForeign = true) : Nonempty r.Reply := by
  cases r with
  | wallSeconds => exact ⟨(0 : Nat)⟩
  | remembered | probe => exact ⟨none⟩
  | settle => exact ⟨Health.Change.none⟩
  | acquire => exact ⟨.error (.internal "")⟩
  | introspect => exact ⟨""⟩
  | _ => cases foreign

theorem Only.hasEnd (only : p.Only fun r => r.isWork = true ∨ r.isForeign = true) (b : Backend) :
    ∃ conv outcome b', p.Ends b conv outcome b' := by
  induction p generalizing b with
  | done a => exact ⟨_, _, _, .done⟩
  | abort => exact ⟨_, _, _, .abort⟩
  | log e rest ih =>
      obtain ⟨conv, outcome, b', run⟩ := ih only b
      exact ⟨conv, outcome, b', .log run⟩
  | ask r next ih =>
      -- others answer what they like, and the backends whatever they are asked for
      by_cases foreign : r.isForeign = true
      · obtain ⟨reply⟩ := reply_of_foreign foreign
        obtain ⟨conv, outcome, b', run⟩ := ih reply (only.2 reply) b
        exact ⟨_, outcome, b', .foreign foreign reply run⟩
      · have work := only.1.resolve_right foreign
        have served : ∃ c step, b.answer c r = some step := by
          rcases Bool.or_eq_true_iff.mp work with inward | outward
          · exact Request.served_of_inward inward b
          · cases r with
            | freshId | insert | scan | depth => exact ⟨Pipeline.Sample.choice, _, rfl⟩
            | _ => cases outward
        obtain ⟨c, step, answered⟩ := served
        obtain ⟨conv, outcome, b', run⟩ := ih step.reply (only.2 step.reply) step.backend
        exact ⟨_, outcome, b', .own (.refl b) answered run⟩

end Prog
end Courier
