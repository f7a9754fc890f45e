import Courier.Proofs.Refusals

/-!
A call that nobody disturbs, while the store and the queue are lost and come back. Whatever the
backends hold, they hold after each of its requests the very same, or the same with the one change
that was asked for; a request that finds its backend lost changes nothing.
-/
namespace Courier

open Prog

theorem Queue.push_shifted (q : Queue) (available : Bool) (job : Job) :
    ({ q with available } : Queue).push job = { q.push job with available } := by
  unfold push
  by_cases waits : q.isWaiting job.key = true
  · rw [if_pos waits]
    exact if_pos waits
  · rw [if_neg waits]
    exact if_neg waits

namespace Backend

variable {b b' : Backend} {c : Choice}

def adding (b : Backend) (n : Notification) : Backend :=
  { b with store := { b.store with records := b.store.records ++ [n] } }

def putting (b : Backend) (n : Notification) : Backend := { b with store := b.store.put n }

def pushing (b : Backend) (job : Job) : Backend := { b with queue := b.queue.push job }

theorem Untouched.pushing (same : b.Untouched b') (job : Job) :
    (b.pushing job).Untouched (b'.pushing job) := by
  obtain ⟨storeUp, queueUp, clock, rfl⟩ := same
  refine ⟨storeUp, queueUp, clock, ?_⟩
  simp only [Backend.pushing, shifted, Queue.push_shifted]

theorem Untouched.putting (same : b.Untouched b') (n : Notification) :
    (b.putting n).Untouched (b'.putting n) := by
  obtain ⟨storeUp, queueUp, clock, rfl⟩ := same
  exact ⟨storeUp, queueUp, clock, rfl⟩

theorem Untouched.adding (same : b.Untouched b') (n : Notification) :
    (b.adding n).Untouched (b'.adding n) := by
  obtain ⟨storeUp, queueUp, clock, rfl⟩ := same
  exact ⟨storeUp, queueUp, clock, rfl⟩

theorem get_cases {id : Uuid} {step : Step (Except Error (Option Notification))}
    (answered : b.answer c (.get id) = some step) : step.backend = b ∧
      (step.reply = .error Store.unavailableError ∨ step.reply = .ok (b.store.find? id)) := by
  cases answered
  refine ⟨rfl, ?_⟩
  cases up : b.store.available with
  | false => exact .inl (by simp [reading, Store.get, up])
  | true => exact .inr (by simp [reading, Store.get, up])

theorem insert_cases {n : Notification} {step : Step (Except Error Unit)}
    (absent : b.store.find? n.id = none) (answered : b.answer c (.insert n) = some step) :
    step.reply = .error Store.unavailableError ∧ step.backend = b ∨
      step.reply = .ok () ∧ step.backend = b.adding n := by
  cases answered
  cases up : b.store.available with
  | false =>
      have refused : b.store.insert n = .error Store.unavailableError := by simp [Store.insert, up]
      exact .inl (by simp [insert, refused])
  | true =>
      have inserted : b.store.insert n =
          .ok { b.store with records := b.store.records ++ [n] } := by
        simp [Store.insert, up, absent]
      exact .inr (by simp [insert, inserted, adding])

theorem update_cases {n old : Notification} {step : Step (Except Error Notification)}
    (found : b.store.find? n.id = some old) (current : old.version = n.version)
    (answered : b.answer c (.update n) = some step) :
    step.reply = .error Store.unavailableError ∧ step.backend = b ∨
      step.reply = .ok (Store.merged old n) ∧ step.backend = b.putting (Store.merged old n) := by
  cases answered
  cases up : b.store.available with
  | false =>
      have refused : b.store.update n = .error Store.unavailableError := by simp [Store.update, up]
      exact .inl (by simp [update, refused])
  | true => exact .inr (by simp [update, Store.update_of_current up found current, putting])

theorem push_cases {job : Job} {step : Step (Except Error Unit)}
    (answered : b.answer c (.enqueue job) = some step) :
    step.reply = .error Queue.unavailableError ∧ step.backend = b ∨
      step.reply = .ok () ∧ step.backend = b.pushing job := by
  cases answered
  cases up : b.queue.available with
  | false =>
      have refused : b.queue.enqueue job = .error Queue.unavailableError := by
        simp [Queue.enqueue, up]
      exact .inl (by simp [enqueue, refused])
  | true =>
      have accepted : b.queue.enqueue job = .ok (b.queue.push job) := by simp [Queue.enqueue, up]
      exact .inr (by simp [enqueue, accepted, pushing])

theorem Untouched.find? (same : b.Untouched b') (id : Uuid) :
    b'.store.find? id = b.store.find? id := by
  obtain ⟨_, _, _, rfl⟩ := same
  rfl

end Backend

namespace Prog

variable {α : Type} {base b : Backend} {told : Conversation}
  {post : Option α → Conversation → Backend → Prop}

theorem lone_get {id : Uuid} {f : Except Error (Option Notification) → Prog α}
    (same : base.Untouched b)
    (rest : ∀ reply b, base.Untouched b → reply = .error Store.unavailableError ∨
      reply = .ok (base.store.find? id) → (f reply).Falters (told ++ [⟨.get id, reply⟩]) post b) :
    (ask (.get id) f).Falters told post b := by
  apply falters_ask
  intro before c step meanwhile answered
  have same := same.trans meanwhile
  obtain ⟨unchanged, reply⟩ := Backend.get_cases answered
  rw [same.find?] at reply
  exact rest step.reply step.backend (unchanged ▸ same) reply

theorem lone_insert {n : Notification} {f : Except Error Unit → Prog α} (same : base.Untouched b)
    (absent : base.store.find? n.id = none)
    (lost : ∀ b, base.Untouched b → (f (.error Store.unavailableError)).Falters
      (told ++ [⟨.insert n, .error Store.unavailableError⟩]) post b)
    (stored : ∀ b, (base.adding n).Untouched b →
      (f (.ok ())).Falters (told ++ [⟨.insert n, .ok ()⟩]) post b) :
    (ask (.insert n) f).Falters told post b := by
  apply falters_ask
  intro before c step meanwhile answered
  have same := same.trans meanwhile
  rcases Backend.insert_cases ((same.find? n.id).trans absent) answered with
    ⟨reply, after⟩ | ⟨reply, after⟩
  · rw [reply, after]
    exact lost before same
  · rw [reply, after]
    exact stored _ (same.adding n)

theorem lone_update {n old : Notification} {f : Except Error Notification → Prog α}
    (same : base.Untouched b) (found : base.store.find? n.id = some old)
    (current : old.version = n.version)
    (lost : ∀ b, base.Untouched b → (f (.error Store.unavailableError)).Falters
      (told ++ [⟨.update n, .error Store.unavailableError⟩]) post b)
    (written : ∀ b, (base.putting (Store.merged old n)).Untouched b →
      (f (.ok (Store.merged old n))).Falters
        (told ++ [⟨.update n, .ok (Store.merged old n)⟩]) post b) :
    (ask (.update n) f).Falters told post b := by
  apply falters_ask
  intro before c step meanwhile answered
  have same := same.trans meanwhile
  rcases Backend.update_cases ((same.find? n.id).trans found) current answered with
    ⟨reply, after⟩ | ⟨reply, after⟩
  · rw [reply, after]
    exact lost before same
  · rw [reply, after]
    exact written _ (same.putting _)

theorem lone_push {job : Job} {f : Except Error Unit → Prog α} (same : base.Untouched b)
    (refused : ∀ b, base.Untouched b → (f (.error Queue.unavailableError)).Falters
      (told ++ [⟨.enqueue job, .error Queue.unavailableError⟩]) post b)
    (pushed : ∀ b, (base.pushing job).Untouched b →
      (f (.ok ())).Falters (told ++ [⟨.enqueue job, .ok ()⟩]) post b) :
    (ask (.enqueue job) f).Falters told post b := by
  apply falters_ask
  intro before c step meanwhile answered
  have same := same.trans meanwhile
  rcases Backend.push_cases answered with ⟨reply, after⟩ | ⟨reply, after⟩
  · rw [reply, after]
    exact refused before same
  · rw [reply, after]
    exact pushed _ (same.pushing job)

theorem Goes.ends {p : Prog α} {a : α} {b' : Backend} {conv : Conversation}
    (course : p.Goes .faltering b conv (.done a) b') : p.Ends b conv (some a) b' := by
  generalize finished : Prog.done a = q at course
  induction course with
  | here =>
      subst finished
      exact .done
  | log onward ih => exact .log (ih finished)
  | ask others _ answered onward ih => exact .own others answered (ih finished)

theorem Onward.remembers {w : Surroundings} {inv : Backend → Prop} {p : Prog α}
    (h : p.Onward w inv told post b) :
    p.Onward w inv told (fun result conv b => post result conv b ∧ told ⊆ conv) b :=
  Meets.mono h fun _ _ _ holds => ⟨holds, List.subset_append_left _ _⟩

end Prog

namespace Service

variable {base b : Backend} {told : Conversation} {n : Notification}

/-- All that marking a pending record as queued can come to. -/
inductive Marked (n : Notification) (base : Backend) :
    Option (Except Error Notification) → Conversation → Backend → Prop
  | lost {conv : Conversation} {b : Backend} (lost : ∃ x ∈ conv, Conversation.isLoss x = true)
      (same : base.Untouched b) : Marked n base (some (.error Store.unavailableError)) conv b
  | queued {time : Instant} {conv : Conversation} {b : Backend}
      (same : (base.putting (Store.merged n (n.queuedFrom time))).Untouched b) :
      Marked n base (some (.ok (Store.merged n (n.queuedFrom time)))) conv b

theorem markQueued_lone (same : base.Untouched b) (found : base.store.find? n.id = some n)
    (pending : n.status = .pending) : (markQueued n.id).Falters told (Marked n base) b := by
  apply lone_get same
  rintro _ b same (rfl | rfl)
  · exact onward_pure (.lost ⟨_, List.mem_append_right _ List.mem_cons_self, rfl⟩ same)
  · rw [found]
    show Falters _ _ (if n.status = .pending then _ else _) _
    rw [if_pos pending]
    apply looks_now same
    intro time b same
    have current : base.store.find? (n.queuedFrom time).id = some n := found
    apply lone_update same current rfl
    · intro b same
      exact onward_pure (.lost ⟨_, List.mem_append_right _ List.mem_cons_self, rfl⟩ same)
    · intro b same
      exact onward_note (onward_pure (.queued same))

/-- All that enqueueing a pending record can come to. -/
inductive Enqueued (n : Notification) (base : Backend) :
    Option (Except Error Notification) → Conversation → Backend → Prop
  | refused {time : Instant} {conv : Conversation} {b : Backend}
      (refused : ⟨.enqueue (.immediate n.id n.attemptCount time),
        .error Queue.unavailableError⟩ ∈ conv)
      (same : base.Untouched b) :
      Enqueued n base (some (.error (.leftPending n.id Queue.unavailableError))) conv b
  | unmarked {time : Instant} {conv : Conversation} {b : Backend} (read : ⟨.now, time⟩ ∈ conv)
      (pushed : ⟨.enqueue (.immediate n.id n.attemptCount time), .ok ()⟩ ∈ conv)
      (lost : ∃ x ∈ conv, Conversation.isLoss x = true)
      (same : (base.pushing (.immediate n.id n.attemptCount time)).Untouched b) :
      Enqueued n base (some (.error Store.unavailableError)) conv b
  | queued {time written : Instant} {conv : Conversation} {b : Backend} (read : ⟨.now, time⟩ ∈ conv)
      (pushed : ⟨.enqueue (.immediate n.id n.attemptCount time), .ok ()⟩ ∈ conv)
      (same : ((base.pushing (.immediate n.id n.attemptCount time)).putting
        (Store.merged n (n.queuedFrom written))).Untouched b) :
      Enqueued n base (some (.ok (Store.merged n (n.queuedFrom written)))) conv b

theorem enqueue_lone (same : base.Untouched b) (found : base.store.find? n.id = some n)
    (pending : n.status = .pending) : (enqueue n).Falters told (Enqueued n base) b := by
  simp only [enqueue, pending]
  apply looks_now same
  intro time b same
  apply lone_push same
  · intro b same
    exact onward_note (onward_pure (.refused (List.mem_append_right _ List.mem_cons_self) same))
  · intro b same
    apply (markQueued_lone same found pending).remembers.mono
    rintro result conv b ⟨marked, told⟩
    have read : ⟨.now, time⟩ ∈ conv :=
      told (List.mem_append_left _ (List.mem_append_right _ List.mem_cons_self))
    have pushed := told (List.mem_append_right _ List.mem_cons_self)
    cases marked with
    | lost lost same => exact .unmarked read pushed lost same
    | queued same => exact .queued read pushed same

end Service
end Courier
