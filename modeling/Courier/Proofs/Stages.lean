import Courier.Proofs.Reports

/-!
How far a call has come. `Prog.Stages` says at each request of a program what was said before it and
what will be left after it, and `Prog.EndsWithin` how many requests are left at most. In a pipeline
a call changes by its own requests only.
-/
namespace Courier

namespace Prog

variable {α β : Type} {w : Surroundings} {b b' : Backend} {p q : Prog α} {told conv : Conversation}
  {asks asks' : Conversation → (r : Request) → (r.Reply → Prog α) → Prop}
  {ends ends' : Conversation → α → Prop}

def Stages (asks : Conversation → (r : Request) → (r.Reply → Prog α) → Prop)
    (ends : Conversation → α → Prop) : Prog α → Conversation → Prop
  | done a, told => ends told a
  | abort, _ => True
  | log _ rest, told => rest.Stages asks ends told
  | ask r next, told =>
    asks told r next ∧ ∀ reply, (next reply).Stages asks ends (told ++ [⟨r, reply⟩])

theorem Stages.bind {f : α → Prog β}
    {goal : Conversation → (r : Request) → (r.Reply → Prog β) → Prop}
    {post : Conversation → β → Prop}
    (h : p.Stages (fun told r next => goal told r fun reply => next reply >>= f) ends told)
    (rest : ∀ told a, ends told a → (f a).Stages goal post told) :
    (p >>= f).Stages goal post told := by
  induction p generalizing told with
  | done a => exact rest told a h
  | abort => trivial
  | log e q ih => exact ih h
  | ask r next ih => exact ⟨h.1, fun reply => ih reply (h.2 reply)⟩

theorem Stages.imp₂ (h : p.Stages asks ends told)
    (weaker : ∀ told r next, asks told r next → asks' told r next)
    (weaker' : ∀ told a, ends told a → ends' told a) : p.Stages asks' ends' told := by
  induction p generalizing told with
  | done a => exact weaker' told a h
  | abort => trivial
  | log e q ih => exact ih h
  | ask r next ih => exact ⟨weaker told r next h.1, fun reply => ih reply (h.2 reply)⟩

theorem Stages.mono (h : p.Stages asks ends told)
    (weaker : ∀ told r next, asks told r next → asks' told r next) :
    p.Stages asks' ends told := h.imp₂ weaker fun _ _ => id

theorem Stages.imp (h : p.Stages asks ends told)
    (weaker : ∀ told a, ends told a → ends' told a) : p.Stages asks ends' told :=
  h.imp₂ (fun _ _ _ => id) weaker

theorem Stages.and (h : p.Stages asks ends told)
    (h' : p.Stages asks' ends' told) :
    p.Stages (fun told r next => asks told r next ∧ asks' told r next)
      (fun told a => ends told a ∧ ends' told a) told := by
  induction p generalizing told with
  | done a => exact ⟨h, h'⟩
  | abort => trivial
  | log e q ih => exact ih h h'
  | ask r next ih => exact ⟨⟨h.1, h'.1⟩, fun reply => ih reply (h.2 reply) (h'.2 reply)⟩

theorem stages_noteAll {es : List Event} {f : Unit → Prog α} (h : (f ()).Stages asks ends told) :
    (noteAll es >>= f).Stages asks ends told := by
  induction es with
  | nil => exact h
  | cons e es ih => exact ih

theorem stages_orAbort {o : Option β} {f : β → Prog α} (h : ∀ b, (f b).Stages asks ends told) :
    (orAbort o >>= f).Stages asks ends told := by
  cases o with
  | none => trivial
  | some b => exact h b

theorem Only.stages {kind : Request → Prop} (only : p.Only kind)
    (holds : ∀ told r next, kind r → asks told r next) :
    p.Stages asks (fun _ _ => True) told := by
  induction p generalizing told with
  | done a => trivial
  | abort => trivial
  | log e q ih => exact ih only
  | ask r next ih => exact ⟨holds told r next only.1, fun reply => ih reply (only.2 reply)⟩

/-- On any course, what is left keeps to the stages of the whole. -/
theorem Stages.goes (h : p.Stages asks ends told) (course : p.Goes w b conv q b') :
    q.Stages asks ends (told ++ conv) := by
  induction course generalizing told with
  | here => simpa using h
  | log onward ih => exact ih h
  | ask others allowed answered onward ih =>
      have later := ih (h.2 _)
      rwa [List.append_assoc] at later

/-- Whatever it is answered, the program comes to that result by no more than so many requests, and
each of them can be answered at once. -/
def EndsWithin (result : α) : Nat → Prog α → Prop
  | _, done a => a = result
  | _, abort => False
  | n, log _ rest => rest.EndsWithin result n
  | 0, ask _ _ => False
  | n + 1, ask r next => r.isInward = true ∧ ∀ reply, (next reply).EndsWithin result n

variable {result : α} {n : Nat}

theorem endsWithin_quiet : p.quiet.EndsWithin result n ↔ p.EndsWithin result n := by
  induction p with
  | log e rest ih => simpa [quiet, EndsWithin] using ih
  | done a => rfl
  | abort => rfl
  | ask r next ih => rfl

end Prog

namespace Pipeline

variable {d : Deployment} {s next : Pipeline} {m : Move} {i : Nat} {call : Call}

theorem Step.grows (h : Step d s m next) : s.past <+: next.past := by
  cases h with
  | begin permitted => exact List.prefix_append _ _
  | advance asks answered => exact List.prefix_append _ _
  | idle tried => exact List.prefix_append _ _
  | leased fresh tried => exact List.prefix_append _ _
  | dropped tried => exact List.prefix_append _ _
  | refused | setClock | setAvailable => exact List.prefix_refl _

/-- A move that does not advance a call leaves it where it is. -/
theorem Step.aside (h : Step d s m next) (other : ∀ c, m ≠ .advance i c)
    (found : s.calls[i]? = some call) :
    next.calls[i]? = some call ∧ next.past.conversation i = s.past.conversation i := by
  cases h with
  | begin permitted =>
      obtain ⟨bound, _⟩ := List.getElem?_eq_some_iff.mp found
      refine ⟨by rw [List.getElem?_append_left bound]; exact found, ?_⟩
      exact conversation_aside (by simp [Happening.exchange?]) i
  | @advance asker c op r k step asks answered =>
      have another : asker ≠ i := fun same => other c (same ▸ rfl)
      refine ⟨by rw [List.getElem?_set_ne another]; exact found, ?_⟩
      simp [Past.conversation, Happening.exchange?, another]
  | refused | setClock | setAvailable => exact ⟨found, rfl⟩
  | idle tried => exact ⟨found, by simp [leasing]⟩
  | leased fresh tried =>
      exact ⟨found, conversation_aside (by simp [Happening.exchange?]) i⟩
  | dropped tried =>
      refine ⟨found, conversation_aside (fun e mem i => ?_) i⟩
      obtain ⟨job, _, rfl⟩ := List.mem_map.mp mem
      rfl

end Pipeline
end Courier
