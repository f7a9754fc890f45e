import Courier.Proofs.Conservation
import Courier.Proofs.Elsewhere
import Courier.Proofs.Undisturbed

/-!
A call about a notification whose job is held under a lease, while the store and the queue are lost
and come back and others go on about other notifications. From one moment to the next its record and
the lease stay as they are, and after each request of the call they are as that request has left
them.
-/
namespace Courier

open Prog

namespace Queue

variable {q : Queue} {lease : Lease} {job : Job} {token : Uuid} {now : Instant}

theorem mem_leases_of_subset {after : Queue} (mem : lease ∈ q.leases)
    (kept : ∀ held ∈ q.leased, held.lease = lease → held ∈ after.leased) :
    lease ∈ after.leases := by
  obtain ⟨held, leased, same⟩ := mem_leases.mp mem
  exact mem_leases.mpr ⟨held, kept held leased same, same⟩

theorem mem_leases_push (mem : lease ∈ q.leases) (other : lease.job.key ≠ job.key) :
    lease ∈ (q.push job).leases := by
  unfold push
  split
  · exact mem
  · refine mem_leases_of_subset mem fun held leased same => ?_
    subst same
    exact List.mem_filter.mpr ⟨leased, bne_iff_ne.mpr other⟩

theorem mem_leases_release (mem : lease ∈ q.leases) (other : lease.token ≠ token) :
    lease ∈ leases { q with leased := q.leased.filter fun held => held.token != token } := by
  refine mem_leases_of_subset mem fun held leased same => ?_
  subst same
  exact List.mem_filter.mpr ⟨leased, bne_iff_ne.mpr other⟩

theorem mem_leases_tryLease (leaseFor : Duration) (token : Uuid) (mem : lease ∈ q.leases)
    (unexpired : now < lease.expiresAt) : lease ∈ (q.tryLease now leaseFor token).2.leases := by
  have reclaimed (held : Held) (leased : held ∈ q.leased) (same : held.lease = lease) :
      held ∈ (q.reclaim now).leased := by
    subst same
    have kept : ¬held.expiresAt ≤ now := Int.not_le.mpr unexpired
    exact List.mem_filter.mpr ⟨leased, by simp [kept]⟩
  refine mem_leases_of_subset mem fun held leased same => ?_
  have kept := reclaimed held leased same
  have tried := tryLease_tried q now leaseFor token
  revert tried
  generalize q.tryLease now leaseFor token = result
  obtain ⟨attempt, after⟩ := result
  intro tried
  cases tried with
  | nothing => exact kept
  | leased => exact List.mem_append_left _ kept
  | outOfRange => exact kept

theorem mem_heldFor (mem : lease ∈ q.leases) :
    (lease.token, lease.job) ∈ q.heldFor lease.job.notificationId := by
  obtain ⟨held, leased, rfl⟩ := mem_leases.mp mem
  exact List.mem_map.mpr ⟨held, List.mem_filter.mpr ⟨leased, beq_self_eq_true _⟩, rfl⟩

end Queue

namespace Backend

variable {b b' : Backend} {id : Uuid} {lease : Lease} {found : Option Notification} {c : Choice}

/-- One thing that may happen meanwhile to a call about the notification: something elsewhere, or
the store and the queue are lost or come back. -/
inductive Meanwhile (id : Uuid) (b : Backend) : Backend → Prop
  | beside {b' : Backend} (beside : b.Beside id b') : Meanwhile id b b'
  | shifted {storeUp queueUp : Bool} {clock : Instant} :
      Meanwhile id b (b.shifted storeUp queueUp clock)

/-- What is stored of the notification of a lease, which is held. -/
structure Keeps (b : Backend) (lease : Lease) (found : Option Notification) : Prop where
  record : b.store.find? lease.job.notificationId = found
  held : lease ∈ b.queue.leases

theorem record_of_spared {r : Request} {step : Step r.Reply} (spares : b.Spares id r)
    (answered : b.answer c r = some step) : step.backend.store.find? id = b.store.find? id := by
  cases r with
  | insert n =>
      cases answered
      simp only [Backend.insert]
      split
      · rename_i store inserted
        obtain ⟨absent, rfl⟩ := Store.insert_eq_ok inserted
        exact (Store.find?_append absent id).trans (if_neg spares)
      · rfl
  | update n =>
      cases answered
      simp only [Backend.update]
      split
      · rename_i stored store updated
        obtain ⟨old, _, _, rfl, rfl⟩ := Store.update_eq_ok updated
        have other : (Store.merged old n).id ≠ id := spares
        exact Store.find?_put_of_ne other
      · rfl
  | enqueue job =>
      cases answered
      simp only [Backend.enqueue]
      split <;> rfl
  | ack token =>
      cases answered
      simp only [Backend.ack]
      split <;> rfl
  | draw bound =>
      obtain ⟨_, answered⟩ := Option.ite_none_right_eq_some.mp answered
      cases answered
      rfl
  | now | freshId | get | scan | depth | send =>
      cases answered
      rfl
  | wallSeconds | lease | pause | probe | remembered | settle | endWatch | acquire | introspect =>
      cases answered

theorem held_of_spared {r : Request} {step : Step r.Reply} (mem : lease ∈ b.queue.leases)
    (spares : b.Spares lease.job.notificationId r) (answered : b.answer c r = some step) :
    lease ∈ step.backend.queue.leases := by
  cases r with
  | enqueue job =>
      cases answered
      simp only [Backend.enqueue]
      split
      · rename_i queue pushed
        obtain rfl := Queue.enqueue_eq_ok pushed
        exact Queue.mem_leases_push mem fun same => spares (Prod.mk.inj same).1.symm
      · exact mem
  | ack token =>
      cases answered
      simp only [Backend.ack]
      split
      · rename_i isHeld queue acked
        obtain ⟨_, rfl⟩ := Queue.ack_eq_ok acked
        exact Queue.mem_leases_release mem (spares _ (Queue.mem_heldFor mem))
      · exact mem
  | insert n =>
      cases answered
      simp only [Backend.insert]
      split <;> exact mem
  | update n =>
      cases answered
      simp only [Backend.update]
      split <;> exact mem
  | draw bound =>
      obtain ⟨_, answered⟩ := Option.ite_none_right_eq_some.mp answered
      cases answered
      exact mem
  | now | freshId | get | scan | depth | send =>
      cases answered
      exact mem
  | wallSeconds | lease | pause | probe | remembered | settle | endWatch | acquire | introspect =>
      cases answered

theorem record_of_meanwhile (others : Relation.ReflTransGen (Meanwhile id) b b') :
    b'.store.find? id = b.store.find? id := by
  induction others with
  | refl => rfl
  | tail _ next ih =>
      refine Eq.trans ?_ ih
      cases next with
      | shifted => rfl
      | beside beside =>
          cases beside with
          | passes | lease => rfl
          | answer spares answered => exact record_of_spared spares answered

theorem held_of_meanwhile (mem : lease ∈ b.queue.leases)
    (others : Relation.ReflTransGen (Meanwhile lease.job.notificationId) b b') :
    lease ∈ b'.queue.leases := by
  induction others with
  | refl => exact mem
  | tail _ next ih =>
      cases next with
      | shifted => exact ih
      | beside beside =>
          cases beside with
          | passes => exact ih
          | answer spares answered => exact held_of_spared ih spares answered
          | @lease leaseFor token unexpired =>
              obtain ⟨held, leased, same⟩ := Queue.mem_leases.mp ih
              subst same
              exact Queue.mem_leases_tryLease leaseFor token ih (unexpired held leased rfl)

theorem Keeps.later (h : b.Keeps lease found)
    (others : Relation.ReflTransGen (Meanwhile lease.job.notificationId) b b') :
    b'.Keeps lease found :=
  ⟨(record_of_meanwhile others).trans h.record, held_of_meanwhile h.held others⟩

end Backend

/-- A call about a notification that no other call is about, while the store and the queue come and
go. -/
def Surroundings.aside (id : Uuid) : Surroundings :=
  ⟨Relation.ReflTransGen (Backend.Meanwhile id), fun _ _ _ => True⟩

/-- The handling of a job goes on from what has been said so far. -/
abbrev Prog.Aside {α : Type} (lease : Lease) (told : Conversation)
    (post : Option α → Conversation → Backend → Prop) (p : Prog α) (b : Backend) : Prop :=
  p.Onward (.aside lease.job.notificationId) (fun _ => True) told post b

section

variable {α : Type} {lease : Lease} {told : Conversation}
  {post : Option α → Conversation → Backend → Prop} {b : Backend} {found : Option Notification}

theorem aside_ask {r : Request} {f : r.Reply → Prog α} (h : b.Keeps lease found)
    (rest : ∀ (before : Backend) (c : Choice) (step : Backend.Step r.Reply),
      before.Keeps lease found → before.answer c r = some step →
      (f step.reply).Aside lease (told ++ [⟨r, step.reply⟩]) post step.backend) :
    (ask r f).Aside lease told post b := by
  apply onward_ask
  intro before c step others _ answered
  exact ⟨trivial, rest before c step (h.later others) answered⟩

theorem aside_look {r : Request} {f : r.Reply → Prog α} (look : r.isLook = true)
    (h : b.Keeps lease found)
    (rest : ∀ reply (after : Backend), after.Keeps lease found →
      (f reply).Aside lease (told ++ [⟨r, reply⟩]) post after) :
    (ask r f).Aside lease told post b := by
  apply aside_ask h
  intro before c step h answered
  have same := Backend.backend_of_look look answered
  exact rest step.reply step.backend (same ▸ h)

theorem aside_get {f : Except Error (Option Notification) → Prog α} (h : b.Keeps lease found)
    (rest : ∀ reply (after : Backend), after.Keeps lease found →
      reply = .error Store.unavailableError ∨ reply = .ok found →
        (f reply).Aside lease (told ++ [⟨.get lease.job.notificationId, reply⟩]) post after) :
    (ask (.get lease.job.notificationId) f).Aside lease told post b := by
  apply aside_ask h
  intro before c step h answered
  obtain ⟨unchanged, reply⟩ := Backend.get_cases answered
  rw [h.record] at reply
  exact rest step.reply step.backend (unchanged ▸ h) reply

theorem aside_update {n old : Notification} {f : Except Error Notification → Prog α}
    (own : n.id = lease.job.notificationId) (current : old.version = n.version)
    (h : b.Keeps lease (some old))
    (lost : ∀ after : Backend, after.Keeps lease (some old) →
      (f (.error Store.unavailableError)).Aside lease
        (told ++ [⟨.update n, .error Store.unavailableError⟩]) post after)
    (written : ∀ after : Backend, after.Keeps lease (some (Store.merged old n)) →
      (f (.ok (Store.merged old n))).Aside lease
        (told ++ [⟨.update n, .ok (Store.merged old n)⟩]) post after) :
    (ask (.update n) f).Aside lease told post b := by
  apply aside_ask h
  intro before c step h answered
  have found : before.store.find? n.id = some old := own ▸ h.record
  rcases Backend.update_cases found current answered with ⟨reply, after⟩ | ⟨reply, after⟩
  · rw [reply, after]
    exact lost before h
  · have placed : before.store.find? (Store.merged old n).id = some old := found
    rw [reply, after]
    exact written _ ⟨own ▸ Store.find?_put_self placed, h.held⟩

theorem aside_push {job : Job} {f : Except Error Unit → Prog α} (other : lease.job.key ≠ job.key)
    (h : b.Keeps lease found)
    (rest : ∀ reply (after : Backend), after.Keeps lease found →
      (f reply).Aside lease (told ++ [⟨.enqueue job, reply⟩]) post after) :
    (ask (.enqueue job) f).Aside lease told post b := by
  apply aside_ask h
  intro before c step h answered
  rcases Backend.push_cases answered with ⟨reply, after⟩ | ⟨reply, after⟩
  · rw [reply, after]
    exact rest _ before h
  · rw [reply, after]
    exact rest _ _ ⟨h.record, Queue.mem_leases_push h.held other⟩

/-- What is said when the job is released makes no difference to the record. -/
theorem aside_ack {token : Uuid} {f : Except Error Bool → Prog α} (h : b.Keeps lease found)
    (rest : ∀ reply (after : Backend), after.store.find? lease.job.notificationId = found →
      (f reply).Aside lease (told ++ [⟨.ack token, reply⟩]) post after) :
    (ask (.ack token) f).Aside lease told post b := by
  apply aside_ask h
  intro before c step h answered
  apply rest step.reply step.backend
  cases answered
  simp only [Backend.ack]
  split <;> exact h.record

end

end Courier
