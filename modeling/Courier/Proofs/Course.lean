import Courier.Proofs.Pipeline

/-!
The course of one call: what it asks for, one request after another, and what it is answered, while
others go on in between. `Prog.Goes` is one course that a call may take. `Prog.Meets` is a condition
on all of them: what holds after each request, and what holds when the call has come to its end or
has broken off. Every call of a pipeline is on a course of its program.
-/
namespace Courier

namespace Backend

variable {b : Backend} {c : Choice}

theorem answer_update {n stored : Notification} {step : Step (Except Error Notification)}
    (answered : b.answer c (.update n) = some step) (ok : step.reply = .ok stored) :
    ∃ old, b.store.find? n.id = some old ∧ old.version = n.version ∧ stored = Store.merged old n ∧
      step.backend = { b with store := b.store.put stored } := by
  cases answered
  simp only [Backend.update] at ok ⊢
  split at ok
  · rename_i _ store updated
    cases ok
    obtain ⟨old, found, same, rfl, rfl⟩ := Store.update_eq_ok updated
    exact ⟨old, found, same, rfl, rfl⟩
  · cases ok

theorem answer_insert {n : Notification} {step : Step (Except Error Unit)}
    (answered : b.answer c (.insert n) = some step) (ok : step.reply = .ok ()) :
    b.store.find? n.id = none ∧
      step.backend = { b with store := { b.store with records := b.store.records ++ [n] } } := by
  cases answered
  simp only [Backend.insert] at ok ⊢
  split at ok
  · rename_i store inserted
    obtain ⟨absent, rfl⟩ := Store.insert_eq_ok inserted
    exact ⟨absent, rfl⟩
  · cases ok

theorem answer_enqueue {job : Job} {step : Step (Except Error Unit)}
    (answered : b.answer c (.enqueue job) = some step) (ok : step.reply = .ok ()) :
    step.backend = { b with queue := b.queue.push job } := by
  cases answered
  simp only [Backend.enqueue, Queue.enqueue] at ok ⊢
  split
  · rename_i queue pushed
    split at pushed
    · cases pushed
      rfl
    · cases pushed
  · rename_i e refused
    simp only [refused] at ok
    cases ok

theorem answer_get {id : Uuid} {found : Option Notification}
    {step : Step (Except Error (Option Notification))} (answered : b.answer c (.get id) = some step)
    (ok : step.reply = .ok found) : b.store.find? id = found ∧ step.backend = b := by
  cases answered
  refine ⟨?_, rfl⟩
  simp only [Backend.reading, Store.get] at ok
  split at ok
  · exact Except.ok.inj ok
  · cases ok

theorem store_of_answer {r : Request} {step : Step r.Reply} (answered : b.answer c r = some step) :
    step.backend.store = b.store ∨ (∃ n, b.store.insert n = .ok step.backend.store) ∨
      ∃ n stored, b.store.update n = .ok (stored, step.backend.store) := by
  cases r with
  | insert n =>
      cases answered
      simp only [Backend.insert]
      split
      · rename_i store ok
        exact .inr (.inl ⟨n, ok⟩)
      · exact .inl rfl
  | update n =>
      cases answered
      simp only [Backend.update]
      split
      · rename_i stored store ok
        exact .inr (.inr ⟨n, stored, ok⟩)
      · exact .inl rfl
  | enqueue job =>
      cases answered
      simp only [Backend.enqueue]
      split
      · exact .inl rfl
      · exact .inl rfl
  | ack token =>
      cases answered
      simp only [Backend.ack]
      split
      · exact .inl rfl
      · exact .inl rfl
  | draw bound =>
      simp only [Backend.answer] at answered
      split at answered
      · cases answered
        exact .inl rfl
      · cases answered
  | now | freshId | get | scan | depth | send =>
      cases answered
      exact .inl rfl
  | wallSeconds | lease | pause | probe | remembered | settle | endWatch | acquire | introspect =>
      cases answered

end Backend

/-- The requests of a call that were answered, with their answers, the oldest first. -/
abbrev Conversation := List ((r : Request) × r.Reply)

/-- What a call has to reckon with: what others may do to the backends between two of its requests,
and which answers it may get. -/
structure Surroundings where
  others : Backend → Backend → Prop
  allows : Backend → Choice → Request → Prop

/-- Others may do whatever they like, and any request may be answered. -/
def Surroundings.any : Surroundings := ⟨fun _ _ => True, fun _ _ _ => True⟩

def Surroundings.still : Surroundings := ⟨fun b b' => b' = b, fun _ _ _ => True⟩

namespace Prog

variable {α β : Type} {w : Surroundings} {inv : Backend → Prop} {b b' : Backend}
  {post post' : Option α → Conversation → Backend → Prop} {p q : Prog α} {conv more : Conversation}

/-- The program may have that conversation, from the backends as they were to the backends as they
are, and is then left as `q`. -/
inductive Goes (w : Surroundings) : Prog α → Backend → Conversation → Prog α → Backend → Prop
  | here {p : Prog α} {b : Backend} : Goes w p b [] p b
  | log {e : Event} {rest q : Prog α} {b b' : Backend} {conv : Conversation}
      (onward : Goes w rest b conv q b') : Goes w (.log e rest) b conv q b'
  | ask {r : Request} {next : r.Reply → Prog α} {q : Prog α} {b before b' : Backend} {c : Choice}
      {step : Backend.Step r.Reply} {conv : Conversation} (others : w.others b before)
      (allowed : w.allows before c r) (answered : before.answer c r = some step)
      (onward : Goes w (next step.reply) step.backend conv q b') :
      Goes w (.ask r next) b (⟨r, step.reply⟩ :: conv) q b'

/-- Whatever course the program takes, `inv` holds of the backends after each request, and `post`
holds in the end, of the result or of none if the program breaks off. -/
def Meets (w : Surroundings) (inv : Backend → Prop) :
    (Option α → Conversation → Backend → Prop) → Prog α → Backend → Prop
  | post, done a, b => post (some a) [] b
  | post, abort, b => post none [] b
  | post, log _ rest, b => rest.Meets w inv post b
  | post, ask r next, b => ∀ before c step, w.others b before → w.allows before c r →
      before.answer c r = some step → inv step.backend ∧
        (next step.reply).Meets w inv (fun result conv => post result (⟨r, step.reply⟩ :: conv))
          step.backend

theorem Meets.mono (h : p.Meets w inv post b)
    (weaker : ∀ result conv b, post result conv b → post' result conv b) :
    p.Meets w inv post' b := by
  induction p generalizing post post' b with
  | done a => exact weaker _ _ _ h
  | abort => exact weaker _ _ _ h
  | log e rest ih => exact ih h weaker
  | ask r next ih =>
      intro before c step others allowed answered
      obtain ⟨kept, onward⟩ := h before c step others allowed answered
      exact ⟨kept, ih _ onward fun result conv b => weaker result _ b⟩

theorem Meets.quiet (h : p.Meets w inv post b) : p.quiet.Meets w inv post b := by
  induction p with
  | log e rest ih => exact ih h
  | _ => exact h

theorem Meets.later (h : p.Meets w inv post b) (trans : ∀ x, w.others b' x → w.others b x)
    (kept : ∀ result conv, post result conv b → post result conv b') :
    p.Meets w inv post b' := by
  induction p with
  | done a => exact kept _ _ h
  | abort => exact kept _ _ h
  | log e rest ih => exact ih h
  | ask r next ih =>
      intro before c step later allowed answered
      exact h before c step (trans before later) allowed answered

theorem Meets.bind {f : α → Prog β} {goal : Option β → Conversation → Backend → Prop}
    (h : p.Meets w inv post b) (broken : ∀ conv b, post none conv b → goal none conv b)
    (rest : ∀ a conv b, post (some a) conv b →
      (f a).Meets w inv (fun result more => goal result (conv ++ more)) b) :
    (p >>= f).Meets w inv goal b := by
  induction p generalizing post goal b with
  | done a => exact rest a [] b h
  | abort => exact broken _ _ h
  | log e q ih => exact ih h broken rest
  | ask r next ih =>
      intro before c step others allowed answered
      obtain ⟨kept, onward⟩ := h before c step others allowed answered
      exact ⟨kept, ih _ onward (fun conv b => broken _ b) fun a conv b => rest a _ b⟩

theorem meets_ask {r : Request} {post : Option r.Reply → Conversation → Backend → Prop}
    (h : ∀ before c step, w.others b before → w.allows before c r →
      before.answer c r = some step → inv step.backend ∧
        post (some step.reply) [⟨r, step.reply⟩] step.backend) :
    (Prog.ask r .done).Meets w inv post b := h

theorem meets_note {e : Event} {f : Unit → Prog α} (h : (f ()).Meets w inv post b) :
    (note e >>= f).Meets w inv post b := h

theorem meets_noteAll {es : List Event} {f : Unit → Prog α} (h : (f ()).Meets w inv post b) :
    (noteAll es >>= f).Meets w inv post b := by
  induction es with
  | nil => exact h
  | cons e es ih => exact ih

theorem meets_orAbort {o : Option β} {f : β → Prog α} (broken : o = none → post none [] b)
    (h : ∀ a, o = some a → (f a).Meets w inv post b) : (orAbort o >>= f).Meets w inv post b := by
  cases o with
  | none => exact broken rfl
  | some a => exact h a rfl

theorem Meets.goes (h : p.Meets w inv post b) (course : p.Goes w b conv q b') :
    q.Meets w inv (fun result more => post result (conv ++ more)) b' := by
  induction course generalizing post with
  | here => exact h
  | log onward ih => exact ih h
  | ask others allowed answered onward ih => exact ih (h _ _ _ others allowed answered).2

/-- The course on which nobody else does anything, with those choices, as far as they go: the
conversation, what is left to do, and the backends after it. -/
def follow : Prog α → List Choice → Backend → Conversation × Prog α × Backend
  | log _ rest, cs, b => rest.follow cs b
  | ask r next, c :: cs, b =>
    match b.answer c r with
    | some step =>
      let (conv, rest) := (next step.reply).follow cs step.backend
      (⟨r, step.reply⟩ :: conv, rest)
    | none => ([], ask r next, b)
  | p, _, b => ([], p, b)

theorem goes_follow {cs : List Choice} (alone : ∀ b, w.others b b)
    (allowed : ∀ c ∈ cs, ∀ b r, w.allows b c r) (p : Prog α) (b : Backend) :
    p.Goes w b (p.follow cs b).1 (p.follow cs b).2.1 (p.follow cs b).2.2 := by
  induction p generalizing cs b with
  | done a => exact .here
  | abort => exact .here
  | log e rest ih => exact .log (ih allowed b)
  | ask r next ih =>
      cases cs with
      | nil => exact .here
      | cons c cs =>
          unfold follow
          split
          · rename_i step answered
            have first := allowed c List.mem_cons_self b r
            have later := fun c mem => allowed c (List.mem_cons_of_mem _ mem)
            exact .ask (alone b) first answered (ih step.reply later step.backend)
          · exact .here

theorem Goes.quiet (course : p.Goes w b conv q b') : p.Goes w b conv q.quiet b' := by
  induction course with
  | @here p b =>
      induction p with
      | log e rest ih => exact .log ih
      | _ => exact .here
  | log onward ih => exact .log ih
  | ask others allowed answered onward ih => exact .ask others allowed answered ih

theorem Goes.snoc {r : Request} {next : r.Reply → Prog α} {before : Backend} {c : Choice}
    {step : Backend.Step r.Reply} (course : p.Goes w b conv (.ask r next) b')
    (others : w.others b' before) (allowed : w.allows before c r)
    (answered : before.answer c r = some step) :
    p.Goes w b (conv ++ [⟨r, step.reply⟩]) (next step.reply) step.backend := by
  generalize left : Prog.ask r next = q at course
  induction course with
  | here =>
      subst left
      exact .ask others allowed answered .here
  | log onward ih => exact .log (ih others left)
  | ask others' allowed' answered' onward ih =>
      exact .ask others' allowed' answered' (ih others left)

theorem Goes.of_bind {f : α → Prog β} {result : β}
    (course : (p >>= f).Goes w b conv (.done result) b') :
    ∃ a first rest between, conv = first ++ rest ∧ p.Goes w b first (.done a) between ∧
      (f a).Goes w between rest (.done result) b' := by
  induction p generalizing b conv with
  | done a => exact ⟨a, [], conv, b, rfl, .here, course⟩
  | abort => cases course
  | log e q ih =>
      cases course with
      | log onward =>
          obtain ⟨a, first, rest, between, split, before, after⟩ := ih onward
          exact ⟨a, first, rest, between, split, .log before, after⟩
  | ask r next ih =>
      cases course with
      | ask others allowed answered onward =>
          obtain ⟨a, first, rest, between, rfl, before, after⟩ := ih _ onward
          exact ⟨a, _, rest, between, rfl, .ask others allowed answered before, after⟩

/-- The program goes on from what has been said so far, and meets the condition on all that will
have been said. -/
def Onward (w : Surroundings) (inv : Backend → Prop) (told : Conversation)
    (post : Option α → Conversation → Backend → Prop) (p : Prog α) (b : Backend) : Prop :=
  p.Meets w inv (fun result conv b => post result (told ++ conv) b) b

variable {told : Conversation}

theorem onward_pure {a : α} (h : post (some a) told b) :
    (pure a : Prog α).Onward w inv told post b := by
  show post (some a) (told ++ []) b
  rw [List.append_nil]
  exact h

theorem onward_abort (h : post none told b) : (abort : Prog α).Onward w inv told post b := by
  show post none (told ++ []) b
  rw [List.append_nil]
  exact h

theorem onward_ask {r : Request} {f : r.Reply → Prog α}
    (h : ∀ before c step, w.others b before → w.allows before c r →
      before.answer c r = some step → inv step.backend ∧
        (f step.reply).Onward w inv (told ++ [⟨r, step.reply⟩]) post step.backend) :
    (ask r f).Onward w inv told post b := by
  intro before c step others allowed answered
  obtain ⟨kept, onward⟩ := h before c step others allowed answered
  refine ⟨kept, Meets.mono onward ?_⟩
  intro result conv b holds
  rw [List.append_assoc] at holds
  exact holds

theorem Onward.mono (h : p.Onward w inv told post b)
    (weaker : ∀ result conv b, post result conv b → post' result conv b) :
    p.Onward w inv told post' b :=
  Meets.mono h fun result conv b => weaker result (told ++ conv) b

theorem Onward.bind {f : α → Prog β} {goal : Option β → Conversation → Backend → Prop}
    (h : p.Onward w inv told post b) (broken : ∀ conv b, post none conv b → goal none conv b)
    (rest : ∀ a conv b, post (some a) conv b → (f a).Onward w inv conv goal b) :
    (p >>= f).Onward w inv told goal b := by
  apply Meets.bind h
  · intro conv b
    exact broken (told ++ conv) b
  · intro a conv b holds
    apply Meets.mono (rest a (told ++ conv) b holds)
    intro result more b goal
    rw [List.append_assoc] at goal
    exact goal

theorem onward_log {e : Event} (h : p.Onward w inv told post b) :
    (log e p).Onward w inv told post b := h

theorem onward_note {e : Event} {f : Unit → Prog α} (h : (f ()).Onward w inv told post b) :
    (note e >>= f).Onward w inv told post b := h

theorem onward_noteAll {es : List Event} {f : Unit → Prog α}
    (h : (f ()).Onward w inv told post b) : (noteAll es >>= f).Onward w inv told post b :=
  meets_noteAll h

theorem onward_orAbort {o : Option β} {f : β → Prog α} (broken : o = none → post none told b)
    (h : ∀ a, o = some a → (f a).Onward w inv told post b) :
    (orAbort o >>= f).Onward w inv told post b := by
  cases o with
  | none => exact onward_abort (broken rfl)
  | some a => exact h a rfl

/-- The program makes no requests but of that kind. -/
def Only (kind : Request → Prop) : Prog α → Prop
  | done _ | abort => True
  | log _ rest => rest.Only kind
  | ask r next => kind r ∧ ∀ reply, (next reply).Only kind

variable {kind : Request → Prop}

theorem Only.bind {f : α → Prog β} (h : p.Only kind) (rest : ∀ a, (f a).Only kind) :
    (p >>= f).Only kind := by
  induction p with
  | done a => exact rest a
  | abort => trivial
  | log e q ih => exact ih h
  | ask r next ih => exact ⟨h.1, fun reply => ih reply (h.2 reply)⟩

theorem only_noteAll {es : List Event} {f : Unit → Prog α} (h : (f ()).Only kind) :
    (noteAll es >>= f).Only kind := by
  induction es with
  | nil => exact h
  | cons e es ih => exact ih

theorem only_orAbort {o : Option β} {f : β → Prog α} (h : ∀ a, (f a).Only kind) :
    (orAbort o >>= f).Only kind := by
  cases o with
  | none => trivial
  | some a => exact h a

theorem Only.mono {kind' : Request → Prop} (only : p.Only kind) (weaker : ∀ r, kind r → kind' r) :
    p.Only kind' := by
  induction p with
  | done a => trivial
  | abort => trivial
  | log e rest ih => exact ih only
  | ask r next ih => exact ⟨weaker r only.1, fun reply => ih reply (only.2 reply)⟩

theorem Only.goes (only : p.Only kind) (course : p.Goes w b conv q b') : q.Only kind := by
  induction course with
  | here => exact only
  | log onward ih => exact ih only
  | ask others allowed answered onward ih => exact ih (only.2 _)

theorem Only.meets (only : p.Only kind) (h : p.Meets w inv post b) :
    p.Meets w inv (fun result conv b => post result conv b ∧ ∀ x ∈ conv, kind x.1) b := by
  induction p generalizing post b with
  | done a => exact ⟨h, fun _ mem => nomatch mem⟩
  | abort => exact ⟨h, fun _ mem => nomatch mem⟩
  | log e rest ih => exact ih only h
  | ask r next ih =>
      intro before c step others allowed answered
      obtain ⟨kept, onward⟩ := h before c step others allowed answered
      refine ⟨kept, (ih step.reply (only.2 step.reply) onward).mono ?_⟩
      intro result conv b ⟨holds, all⟩
      refine ⟨holds, ?_⟩
      intro x mem
      rcases List.mem_cons.mp mem with rfl | later
      · exact only.1
      · exact all x later

theorem meets_anything (p : Prog α) (b : Backend) :
    p.Meets w (fun _ => True) (fun _ _ _ => True) b := by
  induction p generalizing b with
  | done a => trivial
  | abort => trivial
  | log e rest ih => exact ih b
  | ask r next ih => exact fun _ _ step _ _ _ => ⟨trivial, ih step.reply step.backend⟩

theorem Only.ends (only : p.Only kind) (alone : ∀ b, w.others b b)
    (served : ∀ b r, kind r → ∃ c step, w.allows b c r ∧ b.answer c r = some step)
    (h : p.Meets w inv post b) :
    ∃ conv q b', p.Goes w b conv q b' ∧
      ((∃ a, q = .done a ∧ post (some a) conv b') ∨ (q = .abort ∧ post none conv b')) := by
  induction p generalizing post b with
  | done a => exact ⟨[], .done a, b, .here, .inl ⟨a, rfl, h⟩⟩
  | abort => exact ⟨[], .abort, b, .here, .inr ⟨rfl, h⟩⟩
  | log e rest ih =>
      obtain ⟨conv, q, b', course, ended⟩ := ih only h
      exact ⟨conv, q, b', .log course, ended⟩
  | ask r next ih =>
      obtain ⟨c, step, allowed, answered⟩ := served b r only.1
      have onward := (h b c step (alone b) allowed answered).2
      obtain ⟨conv, q, b', course, ended⟩ := ih step.reply (only.2 step.reply) onward
      exact ⟨_, q, b', .ask (alone b) allowed answered course, ended⟩

theorem Only.along (only : p.Only kind) (all : ∀ x ∈ told, kind x.1)
    (h : p.Onward w inv told post b) :
    p.Onward w inv told (fun result conv b => post result conv b ∧ ∀ x ∈ conv, kind x.1) b := by
  refine Meets.mono (only.meets h) ?_
  intro _ conv _ ⟨holds, more⟩
  refine ⟨holds, fun x mem => ?_⟩
  rcases List.mem_append.mp mem with old | new
  · exact all x old
  · exact more x new

theorem Only.onward (only : p.Only kind) (all : ∀ x ∈ told, kind x.1) :
    p.Onward w (fun _ => True) told (fun _ conv _ => ∀ x ∈ conv, kind x.1) b := by
  have anything : p.Onward w (fun _ => True) told (fun _ _ _ => True) b := meets_anything p b
  exact (only.along all anything).mono fun _ _ _ both => both.2

end Prog

def Happening.exchange? (call : Nat) : Happening → Option ((r : Request) × r.Reply)
  | answered asker r reply => if asker = call then some ⟨r, reply⟩ else none
  | _ => none

def Past.conversation (past : Past) (call : Nat) : Conversation :=
  past.filterMap (Happening.exchange? call)

theorem Past.conversation_append (past more : Past) (call : Nat) :
    (past ++ more).conversation call = past.conversation call ++ more.conversation call :=
  List.filterMap_append

@[simp] theorem Past.conversation_snoc_self (past : Past) (i : Nat) (r : Request)
    (reply : r.Reply) :
    Past.conversation (past ++ [.answered i r reply]) i = past.conversation i ++ [⟨r, reply⟩] := by
  simp [Past.conversation, Happening.exchange?]

theorem Past.mem_conversation {past : Past} {call : Nat} {r : Request} {reply : r.Reply} :
    ⟨r, reply⟩ ∈ past.conversation call ↔ .answered call r reply ∈ past := by
  constructor
  · intro mem
    obtain ⟨e, mem, same⟩ := List.mem_filterMap.mp mem
    cases e with
    | answered asker r' reply' =>
        simp only [Happening.exchange?] at same
        split at same
        · subst asker
          cases same
          exact mem
        · cases same
    | _ => cases same
  · intro mem
    exact List.mem_filterMap.mpr ⟨_, mem, by simp [Happening.exchange?]⟩

theorem Past.split_of_exchange {past : Past} {call : Nat} {told more : Conversation}
    {x : (r : Request) × r.Reply} (said : past.conversation call = told ++ x :: more) :
    ∃ before after : Past, past = before ++ .answered call x.1 x.2 :: after ∧
      before.conversation call = told ∧ after.conversation call = more := by
  obtain ⟨first, _, rfl, spoken, last⟩ := List.filterMap_eq_append_iff.mp said
  obtain ⟨quiet, e, after, rfl, silent, exchange, rest⟩ := List.filterMap_eq_cons_iff.mp last
  have before : Past.conversation (first ++ quiet) call = told := by
    rw [conversation_append, ← spoken]
    exact List.append_right_eq_self.mpr (List.filterMap_eq_nil_iff.mpr silent)
  cases e with
  | answered asker r reply =>
      simp only [Happening.exchange?] at exchange
      split at exchange
      · subst asker
        cases exchange
        exact ⟨_, after, (List.append_assoc _ _ _).symm, before, rest⟩
      · cases exchange
  | _ => cases exchange

/-- The last exchange of a call has its place in the past, and the call is answered nothing after
it. -/
theorem Past.split_of_conversation {past : Past} {call : Nat} {told : Conversation}
    {x : (r : Request) × r.Reply} (said : past.conversation call = told ++ [x]) :
    ∃ before after : Past, past = before ++ .answered call x.1 x.2 :: after ∧
      after.conversation call = [] := by
  obtain ⟨before, after, split, _, silent⟩ := split_of_exchange said
  exact ⟨before, after, split, silent⟩

namespace Pipeline

variable {d : Deployment} {allowed : Pipeline → Move → Prop} {clock : Instant} {s : Pipeline}

theorem conversation_aside {past more : Past} (other : ∀ e ∈ more, ∀ i, e.exchange? i = none)
    (i : Nat) : (past ++ more).conversation i = past.conversation i := by
  rw [Past.conversation_append, List.append_right_eq_self]
  exact List.filterMap_eq_nil_iff.mpr fun e mem => other e mem i

theorem courses_advance {call : Nat} {c : Choice} {op : Operation} {r : Request}
    {next : r.Reply → Prog op.Result} {step : Backend.Step r.Reply}
    (going : ∀ (i : Nat) (call : Call), s.calls[i]? = some call → ∃ b b',
      (call.op.program d).Goes .any b (s.past.conversation i) call.rest b')
    (asks : s.calls[call]? = some ⟨op, .ask r next⟩) (answered : s.backend.answer c r = some step)
    (i : Nat) (other : Call)
    (found : (s.calls.set call ⟨op, (next step.reply).quiet⟩)[i]? = some other) :
    ∃ b b', (other.op.program d).Goes .any b
      ((s.past ++ [Happening.answered call r step.reply]).conversation i) other.rest b' := by
  obtain ⟨bound, _⟩ := List.getElem?_eq_some_iff.mp asks
  rw [Past.conversation_append]
  by_cases own : call = i
  · subst own
    rw [List.getElem?_set_self bound] at found
    cases found
    obtain ⟨b, b', course⟩ := going call _ asks
    have onward := course.snoc trivial trivial answered
    simpa [Past.conversation, Happening.exchange?] using ⟨b, _, onward.quiet⟩
  · rw [List.getElem?_set_ne own] at found
    simpa [Past.conversation, Happening.exchange?, own] using going i other found

/-- Every call is on a course of its program, and nothing has been answered to calls that have not
begun. -/
theorem courses_of_reachable (reached : Reachable d allowed clock s) :
    (∀ (i : Nat) (call : Call), s.calls[i]? = some call →
      ∃ b b', (call.op.program d).Goes .any b (s.past.conversation i) call.rest b') ∧
    ∀ i, s.calls.length ≤ i → s.past.conversation i = [] := by
  induction reached with
  | initial => exact ⟨fun _ _ found => (nomatch found), fun _ _ => rfl⟩
  | @step s next m _ _ moved ih =>
      obtain ⟨going, silent⟩ := ih
      -- what is no answer to a call leaves every conversation as it was
      have aside (queue : Queue) (more : Past) (other : ∀ e ∈ more, ∀ i, e.exchange? i = none) :
          (∀ (i : Nat) (call : Call), (s.leasing queue more).calls[i]? = some call →
            ∃ b b', (call.op.program d).Goes .any b ((s.leasing queue more).past.conversation i)
              call.rest b') ∧
          ∀ i, s.calls.length ≤ i → (s.leasing queue more).past.conversation i = [] := by
        simp only [leasing, conversation_aside other]
        exact ⟨going, silent⟩
      cases step_of_step? moved with
      | @begin op permitted =>
          have same (i : Nat) :
              (s.past ++ [Happening.began op]).conversation i = s.past.conversation i := by
            apply conversation_aside
            intro e mem i
            obtain rfl := List.mem_singleton.mp mem
            rfl
          simp only [same]
          constructor
          · intro i call found
            rcases getElem?_snoc found with old | ⟨rfl, rfl⟩
            · exact going i call old
            · rw [silent s.calls.length (Nat.le_refl _)]
              exact ⟨s.backend, s.backend, Prog.Goes.here.quiet⟩
          · intro i beyond
            rw [List.length_append] at beyond
            exact silent i (by omega)
      | @advance call c op r next step asks answered =>
          obtain ⟨bound, _⟩ := List.getElem?_eq_some_iff.mp asks
          refine ⟨courses_advance going asks answered, ?_⟩
          intro i beyond
          rw [List.length_set] at beyond
          have other : call ≠ i := by omega
          rw [Past.conversation_append, silent i beyond]
          simp [Past.conversation, Happening.exchange?, other]
      | refused => exact ⟨going, silent⟩
      | idle tried => exact aside _ [] (by simp)
      | leased fresh tried =>
          apply aside
          intro e mem i
          obtain rfl := List.mem_singleton.mp mem
          rfl
      | dropped tried =>
          apply aside
          intro e mem i
          obtain ⟨job, _, rfl⟩ := List.mem_map.mp mem
          rfl
      | setClock => exact ⟨going, silent⟩
      | setAvailable => exact ⟨going, silent⟩

namespace Sample

def created : Backend :=
  ((Service.create submission).follow (List.replicate 8 choice) (initial Sample.clock).backend).2.2

end Sample

end Pipeline
end Courier
