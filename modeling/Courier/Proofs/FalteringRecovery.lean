import Courier.Proofs.Listings
import Courier.Proofs.RecoveryAccounts
import Courier.Proofs.Rollback
import Mathlib.Logic.Function.Basic

/-!
Bulk recovery while the store and the queue come and go. A notification that could not be reset is
still failed as it was, with one exception: a reset that loses the store after its first write
cannot put the record back, and leaves it pending although it counts as an error.
-/
namespace Courier

open Prog Service

namespace Backend

def shifted (b : Backend) (storeUp queueUp : Bool) (clock : Instant) : Backend :=
  { b with
    store := { b.store with available := storeUp }
    queue := { b.queue with available := queueUp }
    clock }

/-- What is stored under each identifier. -/
def Finds (b : Backend) (records : Uuid → Option Notification) : Prop :=
  ∀ id, b.store.find? id = records id

end Backend

/-- Between two requests time passes, and the store and the queue are lost or come back. Nobody else
does anything. -/
def Surroundings.faltering : Surroundings where
  others b b' := ∃ storeUp queueUp clock, b' = b.shifted storeUp queueUp clock
  allows _ _ _ := True

namespace Conversation

def isWritten : (r : Request) × r.Reply → Bool
  | ⟨.update _, .ok _⟩ => true
  | _ => false

def isLoss : (r : Request) × r.Reply → Bool
  | ⟨.get _, .error e⟩ => e = Store.unavailableError
  | ⟨.update _, .error e⟩ => e = Store.unavailableError
  | _ => false

/-- The store was lost after a record had been replaced. -/
def cutShort : Conversation → Bool
  | [] => false
  | x :: rest => if isWritten x then rest.any isLoss else cutShort rest

end Conversation

/-- The record is that of a failure, and the same failure as the other's. -/
structure Notification.FailedAs (n old : Notification) : Prop where
  status : n.status = .failed
  attemptCount : n.attemptCount = old.attemptCount
  errorMessage : n.errorMessage = old.errorMessage
  failedAt : n.failedAt = old.failedAt

namespace Prog

variable {α : Type} {b : Backend} {told : Conversation} {records : Uuid → Option Notification}
  {post : Option α → Conversation → Backend → Prop}

/-- The program goes on while the store and the queue come and go. -/
abbrev Falters (told : Conversation) (post : Option α → Conversation → Backend → Prop) (p : Prog α)
    (b : Backend) : Prop :=
  p.Onward .faltering (fun _ => True) told post b

theorem falters_now {f : Instant → Prog α} (h : b.Finds records)
    (rest : ∀ time b, b.Finds records → (f time).Falters (told ++ [⟨.now, time⟩]) post b) :
    (ask .now f).Falters told post b := by
  apply onward_ask
  rintro _ c step ⟨storeUp, queueUp, clock, rfl⟩ _ answered
  cases answered
  exact ⟨trivial, rest clock _ h⟩

theorem falters_get {id : Uuid} {f : Except Error (Option Notification) → Prog α}
    (h : b.Finds records)
    (rest : ∀ reply b, b.Finds records →
      reply = .error Store.unavailableError ∨ reply = .ok (records id) →
        (f reply).Falters (told ++ [⟨.get id, reply⟩]) post b) :
    (ask (.get id) f).Falters told post b := by
  apply onward_ask
  rintro _ c step ⟨storeUp, queueUp, clock, rfl⟩ _ answered
  cases answered
  refine ⟨trivial, rest _ _ h ?_⟩
  cases storeUp with
  | false => exact .inl rfl
  | true => exact .inr (congrArg _ (h id))

theorem falters_update {n old : Notification} {f : Except Error Notification → Prog α}
    (h : b.Finds records) (stored : records n.id = some old) (current : old.version = n.version)
    (lost : ∀ b, b.Finds records → (f (.error Store.unavailableError)).Falters
      (told ++ [⟨.update n, .error Store.unavailableError⟩]) post b)
    (written : ∀ b, b.Finds (Function.update records n.id (some (Store.merged old n))) →
      (f (.ok (Store.merged old n))).Falters
        (told ++ [⟨.update n, .ok (Store.merged old n)⟩]) post b) :
    (ask (.update n) f).Falters told post b := by
  apply onward_ask
  rintro before c step ⟨storeUp, queueUp, clock, rfl⟩ _ answered
  refine ⟨trivial, ?_⟩
  have found : (b.shifted storeUp queueUp clock).store.find? n.id = some old :=
    (h n.id).trans stored
  cases answered
  cases storeUp with
  | false => exact lost _ h
  | true =>
      have accepted := Store.update_of_current rfl found current
      simp only [Backend.update, accepted]
      apply written
      intro id
      have placed : (b.shifted true queueUp clock).store.find? (Store.merged old n).id = some old :=
        found
      simp only [Store.find?_put placed, Function.update_apply]
      by_cases own : id = n.id
      · simp [own, Store.merged]
      · have other : (Store.merged old n).id ≠ id := Ne.symm own
        rw [if_neg other, if_neg own]
        exact h id

theorem falters_push {job : Job} {f : Except Error Unit → Prog α} (h : b.Finds records)
    (rest : ∀ reply b, b.Finds records → reply = .ok () ∨ reply = .error Queue.unavailableError →
      (f reply).Falters (told ++ [⟨.enqueue job, reply⟩]) post b) :
    (ask (.enqueue job) f).Falters told post b := by
  apply onward_ask
  rintro before c step ⟨storeUp, queueUp, clock, rfl⟩ _ answered
  refine ⟨trivial, ?_⟩
  cases answered
  cases queueUp with
  | false => exact rest _ _ h (.inr rfl)
  | true => exact rest _ _ h (.inl rfl)

end Prog

namespace Service

/-- What has become of a notification that was to be reset. -/
inductive Faltered (id : Uuid) (records : Uuid → Option Notification) (old : Notification) :
    Option (Except Error Notification) → Conversation → Backend → Prop
  | queued {n q : Notification} {conv : Conversation} {b : Backend}
      (finds : b.Finds (Function.update records id (some n))) :
      Faltered id records old (some (.ok q)) conv b
  | failed {n : Notification} {e : Error} {conv : Conversation} {b : Backend}
      (finds : b.Finds (Function.update records id (some n))) (same : n.FailedAs old)
      (whole : conv.cutShort = false) : Faltered id records old (some (.error e)) conv b
  | stranded {n : Notification} {e : Error} {conv : Conversation} {b : Backend}
      (finds : b.Finds (Function.update records id (some n))) (pending : n.status = .pending)
      (cut : conv.cutShort = true) : Faltered id records old (some (.error e)) conv b

variable {id : Uuid} {records : Uuid → Option Notification} {old : Notification} {b : Backend}

/-- With the reset written, a loss of the store leaves the notification pending. -/
theorem putBack_falters {pending : Notification} {e : Error} {told : Conversation}
    (h : b.Finds (Function.update records old.id (some pending)))
    (waits : pending.status = .pending) (failed : old.status = .failed)
    (written : ∀ more, Conversation.cutShort (told ++ more) = more.any Conversation.isLoss) :
    (putBack old.id old pending e).Falters told (Faltered old.id records old) b := by
  apply falters_now h
  intro time b h
  have stored : Function.update records old.id (some pending) (putBackAt old pending time).id =
      some pending := Function.update_self _ _ _
  apply falters_update h stored rfl
  · intro b h
    refine onward_note (onward_pure (.stranded h waits ?_))
    rw [List.append_assoc, written]
    rfl
  · intro b h
    rw [show (putBackAt old pending time).id = old.id from rfl, Function.update_idem] at h
    refine onward_pure (.failed h ⟨failed, rfl, rfl, rfl⟩ ?_)
    rw [List.append_assoc, written]
    rfl

theorem markQueued_falters {pending : Notification} {told : Conversation}
    {f : Except Error Notification → Prog (Except Error Notification)}
    (h : b.Finds (Function.update records old.id (some pending)))
    (waits : pending.status = .pending) (own : pending.id = old.id)
    (written : ∀ more, Conversation.cutShort (told ++ more) = more.any Conversation.isLoss)
    (onward : ∀ n, f (.ok n) = pure (.ok n))
    (broken : f (.error Store.unavailableError) = pure (.error Store.unavailableError)) :
    (markQueued old.id >>= f).Falters told (Faltered old.id records old) b := by
  have stored : Function.update records old.id (some pending) old.id = some pending :=
    Function.update_self _ _ _
  apply falters_get h
  rintro _ b h (rfl | rfl)
  · show Falters _ _ (f (.error Store.unavailableError)) _
    rw [broken]
    refine onward_pure (.stranded h waits ?_)
    rw [written]
    rfl
  · rw [stored]
    show Falters _ _ ((if pending.status = .pending then _ else _) >>= f) _
    rw [if_pos waits]
    apply falters_now h
    intro time b h
    have found : Function.update records old.id (some pending) (pending.queuedFrom time).id =
        some pending := by
      rw [show (pending.queuedFrom time).id = old.id from own, stored]
    apply falters_update h found rfl
    · intro b h
      show Falters _ _ (f (.error Store.unavailableError)) _
      rw [broken]
      refine onward_pure (.stranded h waits ?_)
      rw [List.append_assoc, List.append_assoc, written]
      rfl
    · intro b h
      show Falters _ _ (.log _ (f (.ok _))) _
      rw [onward]
      apply onward_log
      rw [show (pending.queuedFrom time).id = old.id from own, Function.update_idem] at h
      exact onward_pure (.queued h)

/-- A reset of a failed notification has queued it, or has left or put it back as it was, or has
left it pending; the last exactly when the store was lost after its first write. -/
theorem resetFailed_falters (h : b.Finds records) (stored : records id = some old)
    (own : old.id = id) (failed : old.status = .failed) :
    (resetFailed id).Falters [] (Faltered id records old) b := by
  have kept {b : Backend} (h : b.Finds records) :
      b.Finds (Function.update records id (some old)) := by
    rwa [← stored, Function.update_eq_self]
  have same : old.FailedAs old := ⟨failed, rfl, rfl, rfl⟩
  apply falters_get h
  rintro _ b h (rfl | rfl)
  · exact onward_pure (.failed (kept h) same rfl)
  · rw [stored]
    subst own
    show Falters _ _ ((if old.status = .failed then _ else _) >>= _) _
    rw [if_pos failed]
    apply falters_now h
    intro time b h
    have found : records (old.resetAt time).id = some old := stored
    apply falters_update h found rfl
    · intro b h
      exact onward_pure (.failed (kept h) same rfl)
    · intro b h
      apply falters_now h
      intro read b h
      apply falters_push h
      rintro _ b h (rfl | rfl)
      · exact markQueued_falters h rfl rfl (fun _ => rfl) (fun _ => rfl) rfl
      · apply onward_log
        exact putBack_falters h rfl failed fun _ => rfl

theorem Faltered.settled {result : Except Error Notification} {conv : Conversation}
    (h : Faltered id records old (some result) conv b) :
    ∃ n, b.Finds (Function.update records id (some n)) ∧ ∀ e, result = .error e →
      if conv.cutShort then n.status = .pending else n.FailedAs old := by
  cases h with
  | queued finds => exact ⟨_, finds, fun _ same => nomatch same⟩
  | failed finds same whole => exact ⟨_, finds, fun _ _ => by simpa [whole] using same⟩
  | stranded finds pending cut => exact ⟨_, finds, fun _ _ => by simpa [cut] using pending⟩

end Service

namespace Recovery

variable {b b' : Backend} {records : Uuid → Option Notification} {accounts : List Account}
  {conv : Conversation} {limit : Option Nat} {summary : Summary}

/-- What the reset found and left: if it counts as an error, the notification is still failed as it
was, unless the store was lost after the reset had been written; then it is pending. -/
def Account.Settles (a : Account) (before after : Option Notification) : Prop :=
  ∃ old n, before = some old ∧ after = some n ∧ old.status = .failed ∧
    (a.isError = true → if a.said.cutShort then n.status = .pending else n.FailedAs old)

/-- Resets one after another, of different notifications that have failed, settle each of them, and
leave all others alone. -/
theorem Accounts.settled (resets : Accounts .faltering accounts b b') (h : b.Finds records)
    (once : (accounts.map Account.id).Nodup)
    (failed : ∀ a ∈ accounts, ∃ old, records a.id = some old ∧ old.id = a.id ∧
      old.status = .failed) :
    ∃ final, b'.Finds final ∧ (∀ id ∉ accounts.map Account.id, final id = records id) ∧
      ∀ a ∈ accounts, a.Settles (records a.id) (final a.id) := by
  induction resets generalizing records with
  | nil => exact ⟨records, h, fun _ _ => rfl, fun _ mem => nomatch mem⟩
  | @cons a rest b between b' course later ih =>
      obtain ⟨apart, once⟩ := List.nodup_cons.mp once
      obtain ⟨old, stored, own, wasFailed⟩ := failed a List.mem_cons_self
      have came := (resetFailed_falters h stored own wasFailed).goes course
      simp only [Meets, List.nil_append, List.append_nil] at came
      obtain ⟨n, finds, settled⟩ := came.settled
      have other {id : Uuid} (h : id ∈ rest.map Account.id) : id ≠ a.id := fun same =>
        apart (same ▸ h)
      have failedLater : ∀ x ∈ rest, ∃ old, Function.update records a.id (some n) x.id = some old ∧
          old.id = x.id ∧ old.status = .failed := by
        intro x mem
        rw [Function.update_of_ne (other (List.mem_map_of_mem mem))]
        exact failed x (List.mem_cons_of_mem a mem)
      obtain ⟨final, finds, untouched, all⟩ := ih finds once failedLater
      refine ⟨final, finds, fun id absent => ?_, fun x mem => ?_⟩
      · obtain ⟨first, rest⟩ := not_or.mp (mt List.mem_cons.mpr absent)
        rw [untouched id rest, Function.update_of_ne first]
      · rcases List.mem_cons.mp mem with rfl | mem
        · refine ⟨old, n, stored, ?_, wasFailed, fun isError => ?_⟩
          · rw [untouched x.id apart, Function.update_self]
          · obtain ⟨e, failure⟩ : ∃ e, x.result = .error e := by
              cases failure : x.result with
              | ok n => simp [Account.isError, failure] at isError
              | error e => exact ⟨e, rfl⟩
            exact settled e failure
        · have settled := all x mem
          rwa [Function.update_of_ne (other (List.mem_map_of_mem mem))] at settled

/-- Whatever accesses of the store and the queue fail during a bulk recovery: a notification that it
counts as an error is still failed as it was, unless its reset lost the store after its first
write. -/
theorem errors_stay_failed (once : b.store.ids.Nodup)
    (course : (retryFailed limit).Goes .faltering b conv (.done (.ok summary)) b') :
    ∃ failed before accounts,
      (∀ n, n ∈ failed ↔ n ∈ b.store.records ∧ n.status = .failed) ∧
      accounts.map Account.id = batchOf limit failed ∧
      Surroundings.faltering.others b before ∧ Accounts .faltering accounts before b' ∧
      conv = ⟨.scan (.withStatus .failed), .ok failed⟩ :: accounts.flatMap Account.said ∧
      summary.errors = accounts.countP Account.isError ∧
      ∀ a ∈ accounts, a.Settles (b.store.find? a.id) (b'.store.find? a.id) := by
  obtain ⟨before, failed, accounts, others, scanned, spoken, ids, resets, _, _, errors⟩ :=
    retryFailed_accounts course
  obtain ⟨storeUp, queueUp, clock, rfl⟩ := id others
  have listed (n : Notification) : n ∈ failed ↔ n ∈ b.store.records ∧ n.status = .failed := by
    have listing := Store.mem_listed (n := n) scanned
    exact listing
  have taken : (batchOf limit failed).Sublist (failed.map Notification.id) :=
    (List.take_sublist _ _).map _
  have different : (accounts.map Account.id).Nodup := by
    have once : (b.shifted storeUp queueUp clock).store.ids.Nodup := once
    rw [ids]
    exact (Store.nodup_listed once scanned).sublist taken
  have stored : ∀ a ∈ accounts, ∃ old, b.store.find? a.id = some old ∧ old.id = a.id ∧
      old.status = .failed := by
    intro a mem
    have batched : a.id ∈ batchOf limit failed := ids ▸ List.mem_map_of_mem mem
    obtain ⟨old, mem, own⟩ := List.mem_map.mp (taken.subset batched)
    obtain ⟨mem, wasFailed⟩ := (listed old).mp mem
    exact ⟨old, own ▸ Store.find?_of_mem once mem, own, wasFailed⟩
  obtain ⟨final, finds, _, settled⟩ := resets.settled (fun _ => rfl) different stored
  refine ⟨failed, _, accounts, listed, ids, others, resets, spoken, errors, fun a mem => ?_⟩
  rw [finds a.id]
  exact settled a mem

end Recovery

/-- The course on which the store and the queue are up or not, as listed, at one request after
another. -/
def Prog.falter {α : Type} (c : Choice) :
    Prog α → List (Bool × Bool) → Backend → Conversation × Prog α × Backend
  | log _ rest, ups, b => rest.falter c ups b
  | ask r next, (storeUp, queueUp) :: ups, b =>
    match (b.shifted storeUp queueUp b.clock).answer c r with
    | some step =>
      let (conv, rest) := (next step.reply).falter c ups step.backend
      (⟨r, step.reply⟩ :: conv, rest)
    | none => ([], ask r next, b)
  | p, _, b => ([], p, b)

theorem Prog.falter_ask {α : Type} {c : Choice} {r : Request} {next : r.Reply → Prog α}
    {b : Backend} {storeUp queueUp : Bool} {step : Backend.Step r.Reply}
    (ups : List (Bool × Bool))
    (answered : (b.shifted storeUp queueUp b.clock).answer c r = some step) :
    (ask r next).falter c ((storeUp, queueUp) :: ups) b =
      (⟨r, step.reply⟩ :: ((next step.reply).falter c ups step.backend).1,
        ((next step.reply).falter c ups step.backend).2) := by
  rw [falter, answered]

theorem Prog.goes_falter {α : Type} {c : Choice} (p : Prog α) (ups : List (Bool × Bool))
    (b : Backend) :
    p.Goes .faltering b (p.falter c ups b).1 (p.falter c ups b).2.1 (p.falter c ups b).2.2 := by
  induction p generalizing ups b with
  | done a => exact .here
  | abort => exact .here
  | log e rest ih => exact .log (ih ups b)
  | ask r next ih =>
      cases ups with
      | nil => exact .here
      | cons up ups =>
          unfold falter
          split
          · rename_i step answered
            exact .ask ⟨up.1, up.2, b.clock, rfl⟩ trivial answered (ih step.reply ups step.backend)
          · exact .here

namespace Recovery

namespace Sample

open Pipeline.Sample (deployment id choice created)

def failed : Backend :=
  ((Service.record deployment.policy id 0 (.permanent "gone")).follow (List.replicate 3 choice)
    created).2.2

def queueLost : List (Bool × Bool) :=
  List.replicate 5 (true, true) ++ (true, false) :: List.replicate 2 (true, true)

def readLost : List (Bool × Bool) :=
  List.replicate 6 (true, true) ++ [(false, true)]

def recovery (ups : List (Bool × Bool)) : Conversation × Prog (Except Error Summary) × Backend :=
  (retryFailed none).falter choice ups failed

theorem recovery_goes {ups : List (Bool × Bool)} {summary : Summary}
    (ended : (recovery ups).2.1 = .done (.ok summary)) :
    (retryFailed none).Goes .faltering failed (recovery ups).1 (.done (.ok summary))
      (recovery ups).2.2 :=
  ended ▸ Prog.goes_falter (retryFailed none) ups failed

end Sample

/-- With the push refused, the reset is taken back, and the notification that counts as an error is
still failed. -/
theorem errors_stay_failed_when_queue_lost :
    Sample.failed.store.ids.Nodup ∧
      (Sample.recovery Sample.queueLost).2.1 = .done (.ok ⟨0, 1, 1, 1⟩) ∧
      ((Sample.recovery Sample.queueLost).2.2.store.find? Pipeline.Sample.id).map
        Notification.status = some .failed ∧
      ∃ (failed : List Notification) (accounts : List Account),
        accounts.map Account.id = batchOf none failed ∧
          ∀ a ∈ accounts, a.Settles (Sample.failed.store.find? a.id)
            ((Sample.recovery Sample.queueLost).2.2.store.find? a.id) := by
  have once : Sample.failed.store.ids.Nodup := List.nodup_singleton _
  have ended : (Sample.recovery Sample.queueLost).2.1 = .done (.ok ⟨0, 1, 1, 1⟩) := by
    with_unfolding_all rfl
  obtain ⟨failed, _, accounts, _, ids, _, _, _, _, settled⟩ :=
    errors_stay_failed once (Sample.recovery_goes ended)
  refine ⟨once, ended, ?_, failed, accounts, ids, settled⟩
  with_unfolding_all rfl

/-- A notification that counts as an error is left pending: its job is pushed, and then the read
fails with which it was to be marked as queued. Nothing puts the record back. -/
theorem error_left_pending : ∃ conv b' old n,
    Sample.failed.store.ids.Nodup ∧
      (retryFailed none).Goes .faltering Sample.failed conv (.done (.ok ⟨0, 1, 1, 1⟩)) b' ∧
      Sample.failed.store.find? Pipeline.Sample.id = some old ∧ old.status = .failed ∧
      b'.store.find? Pipeline.Sample.id = some n ∧ n.status = .pending ∧ ¬ n.FailedAs old := by
  have ended : (Sample.recovery Sample.readLost).2.1 = .done (.ok ⟨0, 1, 1, 1⟩) := by
    with_unfolding_all rfl
  have after : ((Sample.recovery Sample.readLost).2.2.store.find? Pipeline.Sample.id).map
      Notification.status = some .pending := by
    with_unfolding_all rfl
  obtain ⟨n, stored, pending⟩ := Option.map_eq_some_iff.mp after
  refine ⟨_, _, _, n, List.nodup_singleton _, Sample.recovery_goes ended, rfl, rfl,
    stored, pending, ?_⟩
  intro same
  exact nomatch pending.symm.trans same.status

end Recovery
end Courier
