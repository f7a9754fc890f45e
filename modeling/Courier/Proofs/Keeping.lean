import Courier.Proofs.Pipeline
import Mathlib.Data.List.Induction

/-!
Rules for calls that run among others. `Prog.Keeps` says of a program that it makes only requests
for which it has a warrant at the time, whatever else has happened in between, and that its result
is then as stated. `Pipeline.keeping_of_reachable` says that in every run of programs that keep to
their warrants, each request that was ever answered had its warrant.
-/
namespace Courier

namespace Past

/-- What the answer to a request tells about the past: the store answers from the version of a
record that was stored last. -/
def Truthful (past : Past) : (r : Request) → r.Reply → Prop
  | .get id, reply => reply = .ok (past.latest id) ∨ reply = .error Store.unavailableError
  | .insert n, reply => reply = .ok () → past.latest n.id = none
  | .update n, reply => ∀ stored, reply = .ok stored →
      ∃ old, past.latest n.id = some old ∧ old.version = n.version ∧ stored = Store.merged old n
  | _, _ => True

end Past

namespace Prog

variable {α β : Type} {warrant : Past → Request → Prop} {me : Nat}
  {post post' : α → Past → Prop} {past now : Past}

/-- From `past` on, the program of call `me` makes no request without a warrant, and a result that
it comes to is as `post` says. Other calls may go on at any time: the past only grows. -/
def Keeps (warrant : Past → Request → Prop) (me : Nat) (post : α → Past → Prop) :
    Prog α → Past → Prop
  | done a, past => ∀ now : Past, past <+: now → post a now
  | abort, _ => True
  | log _ rest, past => rest.Keeps warrant me post past
  | ask r next, past => ∀ now : Past, past <+: now → warrant now r ∧
      ∀ reply, now.Truthful r reply →
        (next reply).Keeps warrant me post (now ++ [.answered me r reply])

theorem Keeps.later {p : Prog α} (h : p.Keeps warrant me post past) (grown : past <+: now) :
    p.Keeps warrant me post now := by
  induction p with
  | done a => exact fun future later => h future (grown.trans later)
  | abort => trivial
  | log e rest ih => exact ih h
  | ask r next ih => exact fun future later => h future (grown.trans later)

theorem Keeps.mono {p : Prog α} (h : p.Keeps warrant me post past)
    (weaker : ∀ a (now : Past), past <+: now → post a now → post' a now) :
    p.Keeps warrant me post' past := by
  induction p generalizing past with
  | done a => exact fun now grown => weaker a now grown (h now grown)
  | abort => trivial
  | log e rest ih => exact ih h weaker
  | ask r next ih =>
      intro now grown
      refine ⟨(h now grown).1, fun reply truth => ih reply ((h now grown).2 reply truth) ?_⟩
      intro a future later
      exact weaker a future (grown.trans ((List.prefix_append _ _).trans later))

theorem Keeps.quiet {p : Prog α} (h : p.Keeps warrant me post past) :
    p.quiet.Keeps warrant me post past := by
  induction p with
  | done a => exact h
  | abort => exact h
  | log e rest ih => exact ih h
  | ask r next ih => exact h

/-- A program followed by another keeps to its warrants when each does, the second from any past in
which the first may have come to an end. -/
theorem Keeps.bind {p : Prog α} {f : α → Prog β} {goal : β → Past → Prop}
    (h : p.Keeps warrant me post past)
    (rest : ∀ a (now : Past), past <+: now → post a now → (f a).Keeps warrant me goal now) :
    (p >>= f).Keeps warrant me goal past := by
  induction p generalizing past with
  | done a => exact rest a past (List.prefix_refl _) (h past (List.prefix_refl _))
  | abort => trivial
  | log e q ih => exact ih h rest
  | ask r next ih =>
      intro now grown
      refine ⟨(h now grown).1, fun reply truth => ih reply ((h now grown).2 reply truth) ?_⟩
      intro a future later
      exact rest a future (grown.trans ((List.prefix_append _ _).trans later))

theorem keeps_pure {a : α} (h : ∀ now : Past, past <+: now → post a now) :
    (pure a : Prog α).Keeps warrant me post past := h

theorem keeps_ask {r : Request} {post : r.Reply → Past → Prop}
    (ask : ∀ now : Past, past <+: now → warrant now r)
    (answered : ∀ (now : Past) reply, past <+: now → now.Truthful r reply →
      ∀ future : Past, now ++ [.answered me r reply] <+: future → post reply future) :
    (Prog.ask r .done).Keeps warrant me post past :=
  fun now grown => ⟨ask now grown, fun reply truth => answered now reply grown truth⟩

theorem keeps_note {e : Event} {f : Unit → Prog α} (h : (f ()).Keeps warrant me post past) :
    (note e >>= f).Keeps warrant me post past := h

theorem keeps_orAbort {o : Option β} {f : β → Prog α}
    (h : ∀ b, o = some b → (f b).Keeps warrant me post past) :
    (orAbort o >>= f).Keeps warrant me post past := by
  cases o with
  | none => trivial
  | some b => exact h b rfl

theorem keeps_noteAll {es : List Event} {f : Unit → Prog α}
    (h : (f ()).Keeps warrant me post past) :
    (noteAll es >>= f).Keeps warrant me post past := by
  induction es with
  | nil => exact h
  | cons e es ih => exact ih

end Prog

/-- What the calls of a run have to keep to: which requests they may make, given what has happened,
and what their results say about it. -/
structure Contract where
  warrant : Operation → Nat → Past → Request → Prop
  outcome : (op : Operation) → Nat → op.Result → Past → Prop

namespace Contract

def KeptBy (c : Contract) (d : Deployment) : Prop :=
  ∀ (op : Operation) (me : Nat) (past : Past), past.permits op →
    (op.program d).Keeps (c.warrant op me) me (c.outcome op me) past

end Contract

/-- A past in which every request that was answered had its warrant, and every answer told the
truth. -/
inductive Past.Lawful (c : Contract) : Past → Prop
  | nil : Lawful c []
  | other {past : Past} {e : Happening} (before : Lawful c past)
      (other : ∀ call r reply, e ≠ .answered call r reply) : Lawful c (past ++ [e])
  | answered {past : Past} {op : Operation} {call : Nat} {r : Request} {reply : r.Reply}
      (before : Lawful c past) (asker : past.operations[call]? = some op)
      (warrant : c.warrant op call past r) (truth : past.Truthful r reply) :
      Lawful c (past ++ [.answered call r reply])

namespace Past

/-- Every answered request had its warrant when it was answered, and the answer was true then. -/
theorem Lawful.of_split {c : Contract} {past before after : Past} {call : Nat} {r : Request}
    {reply : r.Reply} (h : past.Lawful c)
    (split : past = before ++ .answered call r reply :: after) :
    ∃ op, before.operations[call]? = some op ∧ c.warrant op call before r ∧
      before.Truthful r reply := by
  induction h generalizing after with
  | nil => simp at split
  | other _ other ih =>
      rcases snoc_eq_split split with ⟨_, _, same⟩ | ⟨rest, _, split⟩
      · exact absurd same (other call r reply)
      · exact ih split
  | answered _ asker warrant truth ih =>
      rcases snoc_eq_split split with ⟨_, rfl, same⟩ | ⟨rest, _, split⟩
      · cases same
        exact ⟨_, asker, warrant, truth⟩
      · exact ih split

end Past

/-- The store holds of each notification the version that was stored last. -/
structure Past.Describes (past : Past) (store : Store) : Prop where
  found : ∀ id, store.find? id = past.latest id
  known : ∀ n ∈ store.records, n ∈ past.versions n.id

namespace Past.Describes

variable {past : Past} {store : Store} {e : Happening}

theorem of_no_write (h : past.Describes store) (none : e.write? = none) :
    Past.Describes (past ++ [e]) store := by
  refine ⟨fun id => ?_, fun n mem => ?_⟩
  · rw [Past.latest_snoc_of_none none, h.found]
  · rw [Past.versions_snoc_of_none none]
    exact h.known n mem

theorem insert {call : Nat} {n : Notification} {next : Store} (h : past.Describes store)
    (ok : store.insert n = .ok next) (wrote : e.write? = some (call, n)) :
    Past.Describes (past ++ [e]) next := by
  obtain ⟨absent, rfl⟩ := Store.insert_eq_ok ok
  refine ⟨fun id => ?_, fun x mem => ?_⟩
  · rw [Store.find?_append absent]
    split
    · subst id
      exact (Past.latest_snoc_self wrote).symm
    · rw [Past.latest_snoc_of_ne wrote ‹_›, h.found]
  · rcases List.mem_append.mp mem with old | new
    · exact Past.versions_subset (List.prefix_append _ _) (h.known x old)
    · obtain rfl := List.mem_singleton.mp new
      rw [Past.versions_snoc_self wrote]
      exact List.mem_append_right _ (List.mem_singleton.mpr rfl)

theorem update {call : Nat} {n stored : Notification} {next : Store} (h : past.Describes store)
    (ok : store.update n = .ok (stored, next)) (wrote : e.write? = some (call, stored)) :
    Past.Describes (past ++ [e]) next := by
  obtain ⟨old, found, _, rfl, rfl⟩ := Store.update_eq_ok ok
  have found : store.find? (Store.merged old n).id = some old := found
  refine ⟨fun id => ?_, fun x mem => ?_⟩
  · rw [Store.find?_put found]
    split
    · subst id
      exact (Past.latest_snoc_self wrote).symm
    · rw [Past.latest_snoc_of_ne wrote ‹_›, h.found]
  · rcases Store.mem_put mem with rfl | kept
    · rw [Past.versions_snoc_self wrote]
      exact List.mem_append_right _ (List.mem_singleton.mpr rfl)
    · exact Past.versions_subset (List.prefix_append _ _) (h.known x kept)

theorem answer {b : Backend} {c : Choice} {r : Request} {step : Backend.Step r.Reply}
    (h : past.Describes b.store) (answered : b.answer c r = some step) (call : Nat) :
    past.Truthful r step.reply ∧
      Past.Describes (past ++ [.answered call r step.reply]) step.backend.store := by
  cases r with
  | get id =>
      cases answered
      refine ⟨?_, h.of_no_write rfl⟩
      simp only [Past.Truthful, Backend.reading, Store.get, h.found]
      split
      · exact .inl rfl
      · exact .inr rfl
  | insert n =>
      cases answered
      simp only [Backend.insert]
      split
      · rename_i next ok
        refine ⟨fun _ => ?_, h.insert ok rfl⟩
        rw [← h.found]
        exact (Store.insert_eq_ok ok).1
      · exact ⟨fun ok => (nomatch ok), h.of_no_write rfl⟩
  | update n =>
      cases answered
      simp only [Backend.update]
      split
      · rename_i stored next ok
        refine ⟨fun _ same => ?_, h.update ok rfl⟩
        cases same
        obtain ⟨old, found, current, merged, _⟩ := Store.update_eq_ok ok
        exact ⟨old, by rw [← h.found, found], current, merged⟩
      · exact ⟨fun _ same => (nomatch same), h.of_no_write rfl⟩
  | enqueue job =>
      cases answered
      simp only [Backend.enqueue]
      split
      · exact ⟨trivial, h.of_no_write rfl⟩
      · exact ⟨trivial, h.of_no_write rfl⟩
  | ack token =>
      cases answered
      simp only [Backend.ack]
      split
      · exact ⟨trivial, h.of_no_write rfl⟩
      · exact ⟨trivial, h.of_no_write rfl⟩
  | draw bound =>
      simp only [Backend.answer] at answered
      split at answered
      · cases answered
        exact ⟨trivial, h.of_no_write rfl⟩
      · cases answered
  | now | freshId | scan | depth | send =>
      cases answered
      exact ⟨trivial, h.of_no_write rfl⟩
  | wallSeconds | lease | pause | probe | remembered | settle | endWatch | acquire | introspect =>
      cases answered

end Past.Describes

/-- The calls of the pipeline have kept to the contract so far and will go on to. -/
structure Pipeline.Keeping (c : Contract) (s : Pipeline) : Prop where
  lawful : s.past.Lawful c
  describes : s.past.Describes s.backend.store
  operations : s.past.operations = s.calls.map Call.op
  keeps : ∀ (i : Nat) (call : Call), s.calls[i]? = some call →
    call.rest.Keeps (c.warrant call.op i) i (c.outcome call.op i) s.past

namespace Pipeline

variable {c : Contract} {d : Deployment} {s next : Pipeline} {m : Move}

theorem keeping_initial (clock : Instant) : (initial clock).Keeping c :=
  ⟨.nil, ⟨fun _ => rfl, fun _ mem => (nomatch mem)⟩, rfl, fun _ _ h => (nomatch h)⟩

/-- Where nothing but the queue, the clock or the reachability of the store changes, and no call
begins or is answered, the calls stay as they are. -/
theorem Keeping.aside (h : s.Keeping c) (b : Backend) (more : Past)
    (store : b.store.records = s.backend.store.records)
    (other : ∀ e ∈ more, e.operation? = none ∧ ∀ call r reply, e ≠ .answered call r reply) :
    Keeping c ⟨b, s.calls, s.past ++ more⟩ := by
  induction more generalizing s with
  | nil =>
      rw [List.append_nil]
      refine ⟨h.lawful, ⟨fun id => ?_, ?_⟩, h.operations, h.keeps⟩
      · rw [← h.describes.found, Store.find?, store, Store.find?]
      · simpa only [store] using h.describes.known
  | cons e more ih =>
      obtain ⟨noOperation, noAnswer⟩ := other e List.mem_cons_self
      have noWrite : e.write? = none := by
        cases e with
        | answered call r reply => exact absurd rfl (noAnswer call r reply)
        | _ => rfl
      have first : Keeping c { s with past := s.past ++ [e] } := by
        refine ⟨.other h.lawful noAnswer, h.describes.of_no_write noWrite, ?_, ?_⟩
        · rw [← h.operations]
          simp [Past.operations, noOperation]
        · intro i call found
          exact (h.keeps i call found).later (List.prefix_append _ _)
      have := ih first store fun x mem => other x (List.mem_cons_of_mem e mem)
      simpa only [List.append_assoc, List.singleton_append] using this

theorem Keeping.begin (h : s.Keeping c) (kept : c.KeptBy d) {op : Operation}
    (permitted : s.past.permits op) :
    Keeping c { s with
      calls := s.calls ++ [⟨op, (op.program d).quiet⟩], past := s.past ++ [.began op] } := by
  refine ⟨.other h.lawful (fun _ _ _ same => nomatch same), h.describes.of_no_write rfl, ?_, ?_⟩
  · simp [Past.operations, ← h.operations, Happening.operation?]
  · intro i call found
    rcases getElem?_snoc found with old | ⟨rfl, rfl⟩
    · exact (h.keeps i call old).later (List.prefix_append _ _)
    · exact (kept op _ s.past permitted).quiet.later (List.prefix_append _ _)

theorem Keeping.advance (h : s.Keeping c) {call : Nat} {choice : Choice} {op : Operation}
    {r : Request} {next : r.Reply → Prog op.Result} {step : Backend.Step r.Reply}
    (asks : s.calls[call]? = some ⟨op, .ask r next⟩)
    (answered : s.backend.answer choice r = some step) :
    Keeping c
      { backend := step.backend
        calls := s.calls.set call ⟨op, (next step.reply).quiet⟩
        past := s.past ++ [.answered call r step.reply] } := by
  obtain ⟨truth, describes⟩ := h.describes.answer answered call
  obtain ⟨warrant, onward⟩ := h.keeps call _ asks s.past (List.prefix_refl _)
  obtain ⟨bound, found⟩ := List.getElem?_eq_some_iff.mp asks
  have asker : s.past.operations[call]? = some op := by
    rw [h.operations, List.getElem?_map, asks, Option.map_some]
  refine ⟨.answered h.lawful asker warrant truth, describes, ?_, ?_⟩
  · have same : (s.calls.set call ⟨op, (next step.reply).quiet⟩).map Call.op =
        s.calls.map Call.op := by
      refine List.ext_getElem? fun i => ?_
      simp only [List.getElem?_map, List.getElem?_set]
      split
      · subst i
        simp [bound, found]
      · rfl
    rw [same, ← h.operations]
    simp [Past.operations, Happening.operation?]
  · intro i other found
    by_cases same : call = i
    · subst same
      rw [List.getElem?_set_self bound] at found
      cases found
      exact (onward step.reply truth).quiet
    · rw [List.getElem?_set_ne same] at found
      exact (h.keeps i other found).later (List.prefix_append _ _)

theorem Keeping.step (h : s.Keeping c) (kept : c.KeptBy d) (moved : Step d s m next) :
    next.Keeping c := by
  cases moved with
  | begin permitted => exact h.begin kept permitted
  | advance asks answered => exact h.advance asks answered
  | refused => exact h
  | idle tried => exact h.aside _ [] rfl (fun _ mem => nomatch mem)
  | leased fresh tried =>
      refine h.aside _ _ rfl fun e mem => ?_
      obtain rfl := List.mem_singleton.mp mem
      exact ⟨rfl, fun _ _ _ same => nomatch same⟩
  | dropped tried =>
      refine h.aside _ _ rfl fun e mem => ?_
      obtain ⟨job, _, rfl⟩ := List.mem_map.mp mem
      exact ⟨rfl, fun _ _ _ same => nomatch same⟩
  | @setClock t =>
      have aside := h.aside { s.backend with clock := t } [] rfl (fun _ mem => nomatch mem)
      rwa [List.append_nil] at aside
  | @setAvailable store queue =>
      have aside := h.aside { s.backend with
        store := { s.backend.store with available := store }
        queue := { s.backend.queue with available := queue } } [] rfl (fun _ mem => nomatch mem)
      rwa [List.append_nil] at aside

/-- In every run of operations that keep to the contract, whatever the moves, every request that was
answered had its warrant, and every call that came to an end did so as the contract says. -/
theorem keeping_of_reachable {allowed : Pipeline → Move → Prop} {clock : Instant}
    (kept : c.KeptBy d) (reached : Reachable d allowed clock s) : s.Keeping c := by
  induction reached with
  | initial => exact keeping_initial clock
  | step _ _ moved ih => exact ih.step kept (step_of_step? moved)

theorem Keeping.outcome (h : s.Keeping c) {i : Nat} {op : Operation} {result : op.Result}
    (ended : s.calls[i]? = some ⟨op, .done result⟩) : c.outcome op i result s.past :=
  h.keeps i _ ended s.past (List.prefix_refl _)

end Pipeline
end Courier
