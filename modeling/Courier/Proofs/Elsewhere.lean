import Courier.Proofs.LiveJobs
import Courier.Proofs.Rulings
import Mathlib.Logic.Relation

/-!
One notification among others. What happens elsewhere leaves its record, its waiting jobs and its
leases as they are: calls about other notifications, leases of their jobs, and the passing of time,
as long as no lease of its own jobs has run out when somebody looks for a job. What the requests of
a call find and leave behind is then known from one moment to the next.
-/
namespace Courier

open Prog

namespace Queue

variable {q after : Queue} {id : Uuid} {job : Job} {now : Instant} {entry : Entry}

def waitingFor (q : Queue) (id : Uuid) : List Job :=
  (q.waiting.filter fun e => e.job.notificationId == id).map Entry.job

def heldFor (q : Queue) (id : Uuid) : List (Uuid × Job) :=
  (q.leased.filter fun held => held.entry.job.notificationId == id).map fun held =>
    (held.token, held.entry.job)

theorem liveJobs_filter_own (q : Queue) (id : Uuid) :
    (q.liveJobs.filter fun job => job.notificationId == id) =
      q.waitingFor id ++ (q.heldFor id).map Prod.snd := by
  simp [liveJobs, waitingFor, heldFor, List.filter_append, List.filter_map, Function.comp_def]

theorem push_other (other : job.notificationId ≠ id) :
    (q.push job).waitingFor id = q.waitingFor id ∧ (q.push job).heldFor id = q.heldFor id := by
  unfold push
  split
  · exact ⟨rfl, rfl⟩
  · constructor
    · simp [waitingFor, other]
    · have kept (held : Held) (own : held.entry.job.notificationId = id) :
          held.entry.job.key ≠ job.key := by
        intro same
        exact other ((Prod.mk.inj same).1.symm.trans own)
      simp only [heldFor, List.filter_filter]
      congr 1
      apply List.filter_congr
      intro held _
      by_cases own : held.entry.job.notificationId = id
      · simp [own, kept held own]
      · simp [own]

theorem push_own (own : job.notificationId = id)
    (fresh : ∀ other ∈ q.waitingFor id, other.key ≠ job.key) :
    (q.push job).waitingFor id = q.waitingFor id ++ [job] ∧
      (q.push job).heldFor id = (q.heldFor id).filter fun held => held.2.key != job.key := by
  have absent : q.isWaiting job.key = false := by
    apply List.any_eq_false.mpr
    intro e mem same
    have key : e.job.key = job.key := eq_of_beq same
    have owned : e.job.notificationId = id := (Prod.mk.inj key).1.trans own
    have waits : e.job ∈ q.waitingFor id :=
      List.mem_map.mpr ⟨e, List.mem_filter.mpr ⟨mem, beq_iff_eq.mpr owned⟩, rfl⟩
    exact fresh e.job waits key
  unfold push
  rw [if_neg (by simp [absent])]
  constructor
  · simp [waitingFor, own]
  · simp only [heldFor, List.filter_filter, List.filter_map, Function.comp_def, Bool.and_comm]

theorem reclaim_own (unexpired : ∀ held ∈ q.leased, held.entry.job.notificationId = id →
      now < held.expiresAt) :
    (q.reclaim now).waitingFor id = q.waitingFor id ∧
    (q.reclaim now).heldFor id = q.heldFor id := by
  have kept (held : Held) (mem : held ∈ q.leased) (own : held.entry.job.notificationId = id) :
      ¬held.expiresAt ≤ now := Int.not_le.mpr (unexpired held mem own)
  constructor
  · simp only [waitingFor, reclaim, expired, List.filter_append, List.map_append,
      List.append_right_eq_self, List.map_eq_nil_iff, List.filter_eq_nil_iff, List.mem_map,
      List.mem_filter, decide_eq_true_eq, beq_iff_eq]
    rintro e ⟨held, ⟨mem, finished⟩, rfl⟩ own
    exact kept held mem own finished
  · simp only [heldFor, reclaim, List.filter_filter]
    congr 1
    apply List.filter_congr
    intro held mem
    by_cases own : held.entry.job.notificationId = id
    · simp [own, kept held mem own]
    · simp [own]

theorem erase_other (other : entry.job.notificationId ≠ id) :
    waitingFor { q with waiting := q.waiting.erase entry } id = q.waitingFor id := by
  have absent : entry ∉ q.waiting.filter fun e => e.job.notificationId == id := by
    intro mem
    exact other (eq_of_beq (List.mem_filter.mp mem).2)
  simp only [waitingFor, ← List.erase_filter, List.erase_of_not_mem absent]

theorem tryLease_other (leaseFor : Duration) (token : Uuid)
    (unexpired : ∀ held ∈ q.leased, held.entry.job.notificationId = id → now < held.expiresAt)
    (other : ∀ entry, (q.reclaim now).nextVisible now = some entry →
      entry.job.notificationId ≠ id) :
    (q.tryLease now leaseFor token).2.waitingFor id = q.waitingFor id ∧
      (q.tryLease now leaseFor token).2.heldFor id = q.heldFor id := by
  obtain ⟨waiting, held⟩ := reclaim_own unexpired
  unfold tryLease
  simp only []
  cases next : (q.reclaim now).nextVisible now with
  | none => exact ⟨waiting, held⟩
  | some entry =>
      have erased := (erase_other (q := q.reclaim now) (other entry next)).trans waiting
      cases now.add? leaseFor with
      | none => exact ⟨erased, held⟩
      | some expiresAt =>
          refine ⟨erased, ?_⟩
          rw [← held]
          simp [heldFor, other entry next]

theorem tryLease_own {leaseFor : Duration} {token : Uuid} {lease : Lease}
    (tried : q.tryLease now leaseFor token = (.leased lease, after))
    (own : lease.job.notificationId = id) (waits : q.waitingFor id = [job])
    (free : q.heldFor id = []) :
    lease.job = job ∧ lease.token = token ∧ after.available = q.available ∧
      after.waitingFor id = [] ∧ after.heldFor id = [(token, job)] := by
  have unexpired : ∀ held ∈ q.leased, held.entry.job.notificationId = id →
      now < held.expiresAt := by
    intro held mem owned
    have held : (held.token, held.entry.job) ∈ q.heldFor id :=
      List.mem_map.mpr ⟨held, List.mem_filter.mpr ⟨mem, beq_iff_eq.mpr owned⟩, rfl⟩
    rw [free] at held
    cases held
  obtain ⟨waiting, held⟩ := reclaim_own unexpired
  rw [waits] at waiting
  rw [free] at held
  unfold tryLease at tried
  simp only [] at tried
  cases next : (q.reclaim now).nextVisible now with
  | none =>
      rw [next] at tried
      cases tried
  | some entry =>
      rw [next] at tried
      cases ends : now.add? leaseFor with
      | none =>
          rw [ends] at tried
          cases tried
      | some expiresAt =>
          rw [ends] at tried
          cases tried
          have own : entry.job.notificationId = id := own
          have mem : entry ∈ (q.reclaim now).waiting.filter fun e => e.job.notificationId == id :=
            List.mem_filter.mpr ⟨(mem_of_nextVisible next).1, beq_iff_eq.mpr own⟩
          obtain ⟨e, only, same⟩ := List.map_eq_singleton_iff.mp waiting
          rw [only] at mem
          obtain rfl := List.mem_singleton.mp mem
          refine ⟨same, rfl, rfl, ?_, ?_⟩
          · simp [waitingFor, ← List.erase_filter, only]
          · have held : ((q.reclaim now).leased.filter fun held =>
                held.entry.job.notificationId == id) = [] := List.map_eq_nil_iff.mp held
            rw [← same]
            simp [heldFor, held, own]

theorem release_own (q : Queue) (id token : Uuid) :
    heldFor { q with leased := q.leased.filter fun held => held.token != token } id =
      (q.heldFor id).filter fun held => held.1 != token := by
  simp only [heldFor, List.filter_filter, List.filter_map, Function.comp_def, Bool.and_comm]

end Queue

namespace Backend

variable {b b' : Backend} {id : Uuid} {found : Option Notification} {waiting : List Job}
  {held : List (Uuid × Job)}

/-- The backends are available, and have this of the notification: its record, the jobs that wait
and those that are held. -/
structure Shows (b : Backend) (id : Uuid) (found : Option Notification) (waiting : List Job)
    (held : List (Uuid × Job)) : Prop where
  store : b.store.available = true
  queue : b.queue.available = true
  record : b.store.find? id = found
  waits : b.queue.waitingFor id = waiting
  leased : b.queue.heldFor id = held

/-- The request is not about the notification. -/
def Spares (b : Backend) (id : Uuid) : Request → Prop
  | .insert n | .update n => n.id ≠ id
  | .enqueue job => job.notificationId ≠ id
  | .ack token => ∀ held ∈ b.queue.heldFor id, held.1 ≠ token
  | _ => True

/-- One thing that happens elsewhere. -/
inductive Beside (id : Uuid) (b : Backend) : Backend → Prop
  | passes {t : Instant} (later : b.clock ≤ t) : Beside id b { b with clock := t }
  | answer {c : Choice} {r : Request} {step : Step r.Reply} (spares : b.Spares id r)
      (answered : b.answer c r = some step) : Beside id b step.backend
  | lease {leaseFor : Duration} {token : Uuid}
      (unexpired : ∀ held ∈ b.queue.leased, held.entry.job.notificationId = id →
        b.clock < held.expiresAt)
      (other : ∀ entry, (b.queue.reclaim b.clock).nextVisible b.clock = some entry →
        entry.job.notificationId ≠ id) :
      Beside id b { b with queue := (b.queue.tryLease b.clock leaseFor token).2 }

abbrev Elsewhere (id : Uuid) : Backend → Backend → Prop := Relation.ReflTransGen (Beside id)

theorem Shows.answer {c : Choice} {r : Request} {step : Step r.Reply}
    (h : b.Shows id found waiting held) (spares : b.Spares id r)
    (answered : b.answer c r = some step) : step.backend.Shows id found waiting held := by
  cases r with
  | insert n =>
      cases answered
      simp only [Backend.insert]
      split
      · rename_i store inserted
        obtain ⟨absent, rfl⟩ := Store.insert_eq_ok inserted
        refine ⟨h.store, h.queue, ?_, h.waits, h.leased⟩
        rw [Store.find?_append absent, if_neg spares]
        exact h.record
      · exact h
  | update n =>
      cases answered
      simp only [Backend.update]
      split
      · rename_i stored store updated
        obtain ⟨old, _, _, rfl, rfl⟩ := Store.update_eq_ok updated
        have other : (Store.merged old n).id ≠ id := spares
        refine ⟨h.store, h.queue, ?_, h.waits, h.leased⟩
        rw [Store.find?_put_of_ne other]
        exact h.record
      · exact h
  | enqueue job =>
      cases answered
      simp only [Backend.enqueue]
      split
      · rename_i queue pushed
        obtain rfl := Queue.enqueue_eq_ok pushed
        obtain ⟨waits, leased⟩ := Queue.push_other (q := b.queue) spares
        exact ⟨h.store, (Queue.available_push _ _).trans h.queue, h.record, waits.trans h.waits,
          leased.trans h.leased⟩
      · exact h
  | ack token =>
      cases answered
      simp only [Backend.ack]
      split
      · rename_i isHeld queue acked
        obtain ⟨_, rfl⟩ := Queue.ack_eq_ok acked
        refine ⟨h.store, h.queue, h.record, h.waits, ?_⟩
        have kept : ∀ held ∈ b.queue.heldFor id, (held.1 != token) = true :=
          fun held mem => bne_iff_ne.mpr (spares held mem)
        rw [Queue.release_own, List.filter_eq_self.mpr kept]
        exact h.leased
      · exact h
  | draw bound =>
      simp only [Backend.answer] at answered
      split at answered
      · cases answered
        exact h
      · cases answered
  | now | freshId | get | scan | depth | send =>
      cases answered
      exact h
  | wallSeconds | lease | pause | probe | remembered | settle | endWatch | acquire | introspect =>
      cases answered

theorem Shows.later (h : b.Shows id found waiting held) (others : b.Elsewhere id b') :
    b'.Shows id found waiting held := by
  induction others with
  | refl => exact h
  | tail _ beside ih =>
      cases beside with
      | passes later => exact ⟨ih.store, ih.queue, ih.record, ih.waits, ih.leased⟩
      | answer spares answered => exact ih.answer spares answered
      | @lease leaseFor token unexpired other =>
          obtain ⟨waits, leased⟩ := Queue.tryLease_other leaseFor token unexpired other
          exact ⟨ih.store, (Queue.available_tryLease _ _ _ _).trans ih.queue, ih.record,
            waits.trans ih.waits, leased.trans ih.leased⟩

end Backend

/-- A call about a notification that nobody else has to do with, with answers of some kind only. -/
def Surroundings.apart (id : Uuid) (allows : Choice → Prop) : Surroundings :=
  ⟨Backend.Elsewhere id, fun _ c _ => allows c⟩

/-- The program goes on, apart from what happens elsewhere, from what has been said so far. -/
abbrev Prog.Amid {α : Type} (id : Uuid) (allows : Choice → Prop) (told : Conversation)
    (post : Option α → Conversation → Backend → Prop) (p : Prog α) (b : Backend) : Prop :=
  p.Onward (.apart id allows) (fun _ => True) told post b

section

variable {α : Type} {id : Uuid} {allows : Choice → Prop} {told : Conversation}
  {post : Option α → Conversation → Backend → Prop} {b : Backend} {found : Option Notification}
  {waiting : List Job} {held : List (Uuid × Job)}

theorem amid_ask {r : Request} {f : r.Reply → Prog α} (h : b.Shows id found waiting held)
    (rest : ∀ (before : Backend) (c : Choice) (step : Backend.Step r.Reply),
      before.Shows id found waiting held → allows c → before.answer c r = some step →
      (f step.reply).Amid id allows (told ++ [⟨r, step.reply⟩]) post step.backend) :
    (ask r f).Amid id allows told post b := by
  apply onward_ask
  intro before c step others allowed answered
  exact ⟨trivial, rest before c step (h.later others) allowed answered⟩

theorem amid_now {f : Instant → Prog α} (h : b.Shows id found waiting held)
    (rest : ∀ (time : Instant) (after : Backend), after.Shows id found waiting held →
      (f time).Amid id allows (told ++ [⟨.now, time⟩]) post after) :
    (ask .now f).Amid id allows told post b := by
  apply amid_ask h
  intro before c step shows _ answered
  cases answered
  exact rest before.clock before shows

theorem amid_get {f : Except Error (Option Notification) → Prog α}
    (h : b.Shows id found waiting held)
    (rest : ∀ after : Backend, after.Shows id found waiting held →
      (f (.ok found)).Amid id allows (told ++ [⟨.get id, .ok found⟩]) post after) :
    (ask (.get id) f).Amid id allows told post b := by
  apply amid_ask h
  intro before c step shows _ answered
  cases answered
  simp only [Backend.reading, Store.get, shows.store, ↓reduceIte, shows.record]
  exact rest before shows

theorem amid_insert {n : Notification} {f : Except Error Unit → Prog α} (own : n.id = id)
    (h : b.Shows id none waiting held)
    (rest : ∀ after : Backend, after.Shows id (some n) waiting held →
      (f (.ok ())).Amid id allows (told ++ [⟨.insert n, .ok ()⟩]) post after) :
    (ask (.insert n) f).Amid id allows told post b := by
  subst own
  apply amid_ask h
  intro before c step shows _ answered
  cases answered
  have inserted : before.store.insert n =
      .ok { before.store with records := before.store.records ++ [n] } := by
    unfold Store.insert
    rw [if_pos shows.store, shows.record]
  simp only [Backend.insert, inserted]
  refine rest _ ⟨shows.store, shows.queue, ?_, shows.waits, shows.leased⟩
  rw [Store.find?_append shows.record, if_pos rfl]

theorem amid_update {n old : Notification} {f : Except Error Notification → Prog α}
    (own : n.id = id) (current : old.version = n.version) (h : b.Shows id (some old) waiting held)
    (rest : ∀ after : Backend, after.Shows id (some (Store.merged old n)) waiting held →
      (f (.ok (Store.merged old n))).Amid id allows
        (told ++ [⟨.update n, .ok (Store.merged old n)⟩]) post after) :
    (ask (.update n) f).Amid id allows told post b := by
  subst own
  apply amid_ask h
  intro before c step shows _ answered
  cases answered
  simp only [Backend.update, Store.update_of_current shows.store shows.record current]
  refine rest _ ⟨shows.store, shows.queue, ?_, shows.waits, shows.leased⟩
  have present : before.store.find? (Store.merged old n).id = some old := shows.record
  exact Store.find?_put_self present

theorem amid_push {job : Job} {f : Except Error Unit → Prog α} (own : job.notificationId = id)
    (fresh : ∀ other ∈ waiting, other.key ≠ job.key) (h : b.Shows id found waiting held)
    (rest : ∀ after : Backend, after.Shows id found (waiting ++ [job])
        (held.filter fun held => held.2.key != job.key) →
      (f (.ok ())).Amid id allows (told ++ [⟨.enqueue job, .ok ()⟩]) post after) :
    (ask (.enqueue job) f).Amid id allows told post b := by
  apply amid_ask h
  intro before c step shows _ answered
  cases answered
  simp only [Backend.enqueue, Queue.enqueue, shows.queue, ↓reduceIte]
  rw [← shows.waits] at fresh
  obtain ⟨waits, leased⟩ := Queue.push_own own fresh
  refine rest _ ⟨shows.store, (Queue.available_push _ _).trans shows.queue, shows.record, ?_, ?_⟩
  · rw [waits, shows.waits]
  · rw [leased, shows.leased]

theorem amid_ack {token : Uuid} {f : Except Error Bool → Prog α} (h : b.Shows id found waiting held)
    (rest : ∀ (isHeld : Bool) (after : Backend),
      after.Shows id found waiting (held.filter fun held => held.1 != token) →
      (f (.ok isHeld)).Amid id allows (told ++ [⟨.ack token, .ok isHeld⟩]) post after) :
    (ask (.ack token) f).Amid id allows told post b := by
  apply amid_ask h
  intro before c step shows _ answered
  cases answered
  simp only [Backend.ack, Queue.ack, if_pos shows.queue]
  refine rest _ _ ⟨shows.store, shows.queue, shows.record, shows.waits, ?_⟩
  rw [Queue.release_own, shows.leased]

end
end Courier
