import Courier.Proofs.Rollback

/-!
Writes that come too late. A call goes on with a record that it has read only if it finds it as it
wants it, and when another writer was faster it reads the record again. `Tries` says how often that
has happened to it since it began or last stored a record, and each loop of the service keeps count
of just that.
-/
namespace Courier

open Prog

/-- What a record has to be for a call to replace it. -/
inductive Wanted where
  | pending
  | failed
  /-- Waiting for the attempt with that number. -/
  | attempt (number : Nat)

def Wanted.Is : Wanted → Notification → Prop
  | pending, n => n.status = .pending
  | failed, n => n.status = .failed
  | attempt number, n => n.status = .queued ∧ n.attemptCount = number

def Request.isRead (id : Uuid) : Request → Bool
  | .get asked => decide (asked = id)
  | _ => false

theorem Request.isRead_iff {id : Uuid} {r : Request} : r.isRead id = true ↔ r = .get id := by
  cases r <;> simp [isRead]

namespace Conversation

variable {id : Uuid} {w : Wanted} {k : Nat} {n m : Notification} {e : Error} {r : Request}
  {reply : r.Reply} {told more : Conversation}

def reads (id : Uuid) (conv : Conversation) : Nat := conv.countP fun x => x.1.isRead id

theorem reads_append (id : Uuid) (conv more : Conversation) :
    Conversation.reads id (conv ++ more) = conv.reads id + more.reads id := List.countP_append

/-- Nobody has read the notification, and no record was stored. -/
structure Quiet (id : Uuid) (conv : Conversation) : Prop where
  unread : conv.reads id = 0
  unwritten : conv.written = []

theorem quiet_nil : Quiet id [] := ⟨rfl, rfl⟩

theorem Quiet.snoc (quiet : Quiet id told) (unread : r.isRead id = false)
    (unwritten : Conversation.written [⟨r, reply⟩] = []) : Quiet id (told ++ [⟨r, reply⟩]) := by
  constructor
  · rw [reads_append, quiet.unread]
    simp [reads, unread]
  · exact Service.written_snoc quiet.unwritten unwritten

/-- Nothing has been said yet, or a record has just been stored. -/
def Fresh (conv : Conversation) : Prop :=
  conv = [] ∨ ∃ before x, conv = before ++ [x] ∧ Conversation.written [x] ≠ []

/-- What was said last, without a record being stored, was said after the conversation was fresh. -/
theorem Fresh.suffix {base first last : Conversation} (fresh : base.Fresh)
    (said : first ++ last = base ++ more) (silent : last.written = []) :
    ∃ rest, more = rest ++ last := by
  rcases List.append_eq_append_iff.mp said with ⟨between, split, rfl⟩ | ⟨rest, _, rfl⟩
  · rcases List.eq_nil_or_concat between with rfl | ⟨init, y, rfl⟩
    · exact ⟨[], rfl⟩
    · rcases fresh with rfl | ⟨before, x, rfl, wrote⟩
      · simp at split
      · rw [List.concat_eq_append, ← List.append_assoc] at split
        obtain ⟨_, rfl⟩ := List.append_singleton_inj.mp split
        rw [List.concat_eq_append, written_append, written_append] at silent
        exact absurd (List.append_eq_nil_iff.mp (List.append_eq_nil_iff.mp silent).1).2 wrote
  · exact ⟨rest, rfl⟩

/-- So many times in a row the call has found the record as it wants it, and another writer was
faster. -/
inductive Tries (id : Uuid) (w : Wanted) : Nat → Conversation → Prop
  | none {told quiet : Conversation} (fresh : told.Fresh) (still : Quiet id quiet) :
      Tries id w 0 (told ++ quiet)
  | lost {k : Nat} {told more : Conversation} {n m : Notification} {e : Error}
      (tried : Tries id w k told) (wanted : w.Is n) (quiet : Quiet id more)
      (refused : ⟨.update m, .error e⟩ ∈ more) (conflict : e.isConflict = true)
      (same : m.version = n.version) (own : m.id = n.id) :
      Tries id w (k + 1) (told ++ ⟨.get id, .ok (some n)⟩ :: more)

/-- After so many tries the call has found the record as it wants it, and has not replaced it
yet. -/
inductive Holding (id : Uuid) (w : Wanted) (k : Nat) (n : Notification) : Conversation → Prop
  | intro {told more : Conversation} (tried : Tries id w k told) (wanted : w.Is n)
      (quiet : Quiet id more) : Holding id w k n (told ++ ⟨.get id, .ok (some n)⟩ :: more)

theorem Fresh.tries (fresh : told.Fresh) : Tries id w 0 told := by
  have tried : Tries id w 0 (told ++ []) := .none fresh quiet_nil
  rwa [List.append_nil] at tried

theorem Tries.aside (tried : Tries id w k told) (r : Request) (reply : r.Reply)
    (unread : r.isRead id = false) (unwritten : Conversation.written [⟨r, reply⟩] = []) :
    Tries id w k (told ++ [⟨r, reply⟩]) := by
  cases tried with
  | none fresh still =>
      rw [List.append_assoc]
      exact .none fresh (still.snoc unread unwritten)
  | lost tried wanted quiet refused conflict same own =>
      rw [List.append_assoc]
      exact .lost tried wanted (quiet.snoc unread unwritten)
        (List.mem_append_left _ refused) conflict
        same own

theorem Tries.found (tried : Tries id w k told) (wanted : w.Is n) :
    Holding id w k n (told ++ [⟨.get id, .ok (some n)⟩]) := .intro tried wanted quiet_nil

theorem Holding.aside (h : Holding id w k n told) (r : Request) (reply : r.Reply)
    (unread : r.isRead id = false) (unwritten : Conversation.written [⟨r, reply⟩] = []) :
    Holding id w k n (told ++ [⟨r, reply⟩]) := by
  cases h with
  | intro tried wanted quiet =>
      rw [List.append_assoc]
      exact .intro tried wanted (quiet.snoc unread unwritten)

theorem Holding.lost (h : Holding id w k n told) (conflict : e.isConflict = true)
    (same : m.version = n.version) (own : m.id = n.id) :
    Tries id w (k + 1) (told ++ [⟨.update m, .error e⟩]) := by
  cases h with
  | intro tried wanted quiet =>
      rw [List.append_assoc]
      exact .lost tried wanted (quiet.snoc rfl rfl) (by simp) conflict same own

/-- All tries that were lost came after the last record that was stored. -/
theorem Tries.since (tried : Tries id w k told) :
    ∃ base since, told = base ++ since ∧ Conversation.written since = [] ∧
      Conversation.reads id since = k := by
  induction tried with
  | @none told quiet fresh still => exact ⟨told, quiet, rfl, still.unwritten, still.unread⟩
  | @lost k told more n m e tried wanted quiet refused conflict same own ih =>
      obtain ⟨base, since, rfl, silent, counted⟩ := ih
      refine ⟨base, since ++ ⟨.get id, .ok (some n)⟩ :: more, List.append_assoc _ _ _, ?_, ?_⟩
      · rw [written_append, silent]
        exact quiet.unwritten
      · have unread := quiet.unread
        rw [reads_append, counted]
        simp only [reads, List.countP_cons, Request.isRead, decide_true, if_true] at unread ⊢
        omega

/-- What is read at all is read for the last time. -/
theorem exists_last_read {conv : Conversation} (some : conv.reads id ≠ 0) :
    ∃ first reply rest, conv = first ++ ⟨.get id, reply⟩ :: rest ∧
      Conversation.reads id rest = 0 := by
  induction conv with
  | nil => exact absurd rfl some
  | cons x conv ih =>
      by_cases more : Conversation.reads id conv = 0
      · obtain ⟨r, reply⟩ := x
        by_cases read : r.isRead id = true
        · obtain rfl := Request.isRead_iff.mp read
          exact ⟨[], reply, conv, rfl, more⟩
        · have skipped : Conversation.reads id (⟨r, reply⟩ :: conv) =
              Conversation.reads id conv := by
            simp [reads, read]
          exact absurd (skipped.trans more) some
      · obtain ⟨first, reply, rest, rfl, last⟩ := ih more
        exact ⟨x :: first, reply, rest, rfl, last⟩

/-- What is true of all answers of the store. -/
structure Honest (conv : Conversation) : Prop where
  stored : ∀ m n, ⟨.update m, .ok n⟩ ∈ conv → n.id = m.id
  found : ∀ id n, ⟨.get id, .ok (some n)⟩ ∈ conv → n.id = id
  unread : ∀ id e, ⟨.get id, .error e⟩ ∈ conv → e.isConflict = false

theorem Honest.of_append (h : Honest (told ++ more)) : told.Honest :=
  ⟨fun m n mem => h.stored m n (List.mem_append_left _ mem),
    fun id n mem => h.found id n (List.mem_append_left _ mem),
    fun id e mem => h.unread id e (List.mem_append_left _ mem)⟩

end Conversation

namespace Service

open Conversation (Tries Holding Quiet Fresh)

variable {α : Type} {id : Uuid} {w : Wanted} {k tries : Nat} {told : Conversation}

/-- Whoever reads the notification again has lost all tries since it last stored a record. -/
def AtRead (id : Uuid) (told : Conversation) (r : Request) (_ : r.Reply → Prog α) : Prop :=
  told.Honest → r.isRead id = true → ∃ w k, Tries id w k told

/-- Whoever gives up because of other writers has lost as many tries as there are. -/
def GivesUp (id : Uuid) (told : Conversation) (result : Except Error α) : Prop :=
  told.Honest → ∀ e, result = .error e → e.isConflict = true → ∃ w, Tries id w writeTries told

theorem atRead_of_not {r : Request} {next : r.Reply → Prog α} (unread : r.isRead id = false) :
    AtRead id told r next := fun _ read => nomatch unread.symm.trans read

theorem givesUp_ok (a : α) : GivesUp id told (.ok a) := fun _ _ same => nomatch same

theorem givesUp_of_not {e : Error} (other : e.isConflict = false) :
    GivesUp id told (.error e : Except Error α) := by
  rintro _ _ ⟨⟩ conflict
  exact nomatch other.symm.trans conflict

theorem stages_of_dishonest {p : Prog (Except Error α)} (h : ¬told.Honest) :
    p.Stages (AtRead id) (GivesUp id) told := by
  induction p generalizing told with
  | done a => exact fun honest => absurd honest h
  | abort => trivial
  | log e rest ih => exact ih h
  | ask r next ih =>
      exact ⟨fun honest => absurd honest h, fun reply => ih reply fun honest => h honest.of_append⟩

/-- A try begins with a read, and ends with it if there is no such notification. -/
theorem get_stages {f : Except Error Notification → Prog (Except Error α)}
    (tried : Tries id w k told) (ends : ∀ e, f (.error e) = pure (.error e))
    (onward : ∀ n, (f (.ok n)).Stages (AtRead id) (GivesUp id)
      (told ++ [⟨.get id, .ok (some n)⟩])) :
    (get id >>= f).Stages (AtRead id) (GivesUp id) told := by
  refine ⟨fun _ _ => ⟨w, k, tried⟩, fun reply => ?_⟩
  match reply with
  | .ok (some n) => exact onward n
  | .ok none =>
      show (f (.error _)).Stages _ _ _
      rw [ends]
      exact givesUp_of_not rfl
  | .error e =>
      show (f (.error e)).Stages _ _ _
      rw [ends]
      intro honest
      exact givesUp_of_not (honest.unread id e (by simp)) honest

/-- A try ends with a write, and another begins if that comes too late. -/
theorem update_stages {n next : Notification}
    {f : Except Error Notification → Prog (Except Error α)} {again : Prog (Except Error α)}
    (holding : Holding id w k n told) (same : next.version = n.version) (own : next.id = n.id)
    (late : ∀ e, f (.error e) = if e.isConflict then again else pure (.error e))
    (stores : ∀ stored told, (f (.ok stored)).Stages (AtRead id) (GivesUp id) told)
    (onward : ∀ told, Tries id w (k + 1) told → again.Stages (AtRead id) (GivesUp id) told) :
    (update next >>= f).Stages (AtRead id) (GivesUp id) told := by
  refine ⟨atRead_of_not rfl, fun reply => ?_⟩
  match reply with
  | .ok stored => exact stores stored _
  | .error e =>
      show (f (.error e)).Stages _ _ _
      rw [late]
      by_cases conflict : e.isConflict = true
      · rw [if_pos conflict]
        exact onward _ (holding.lost conflict same own)
      · rw [if_neg conflict]
        exact givesUp_of_not (Bool.not_eq_true _ ▸ conflict)

theorem markQueuedIn_stages (tried : Tries id .pending k told) (left : tries + k = writeTries) :
    (markQueuedIn tries id).Stages (AtRead id) (GivesUp id) told := by
  induction tries generalizing k told with
  | zero =>
      obtain rfl : k = writeTries := by omega
      exact fun _ _ _ _ => ⟨.pending, tried⟩
  | succ tries ih =>
      refine get_stages tried (fun _ => rfl) fun current => ?_
      show Stages _ _ (if current.status = .pending then _ else _) _
      by_cases pending : current.status = .pending
      · rw [if_pos pending]
        refine ⟨atRead_of_not rfl, fun time => ?_⟩
        have holding := (tried.found pending).aside .now time rfl rfl
        refine update_stages holding rfl rfl (fun _ => rfl) ?_ ?_
        · exact fun stored _ => givesUp_ok stored
        · exact fun _ tried => ih tried (by omega)
      · rw [if_neg pending]
        exact givesUp_ok current

theorem resetIn_tries (tried : Tries id .failed k told) (left : tries + k = writeTries) :
    (resetIn tries id).Stages (AtRead id) (GivesUp id) told := by
  induction tries generalizing k told with
  | zero =>
      obtain rfl : k = writeTries := by omega
      exact fun _ _ _ _ => ⟨.failed, tried⟩
  | succ tries ih =>
      refine get_stages tried (fun _ => rfl) fun current => ?_
      show Stages _ _ (if current.status = .failed then _ else _) _
      by_cases failed : current.status = .failed
      · rw [if_pos failed]
        refine ⟨atRead_of_not rfl, fun time => ?_⟩
        have holding := (tried.found failed).aside .now time rfl rfl
        refine update_stages holding rfl rfl (fun _ => rfl) ?_ ?_
        · exact fun stored _ => givesUp_ok (current, stored)
        · exact fun _ tried => ih tried (by omega)
      · rw [if_neg failed]
        exact givesUp_of_not rfl

variable {policy : Retry.Policy} {attempt : Nat} {outcome : Outcome} {current : Notification}

/-- What an outcome makes of a record is made of the version that was read. -/
def Derived (current : Notification) :
    Except Error (Notification × (Notification → Recorded)) → Prop
  | .ok (next, _) => next.version = current.version ∧ next.id = current.id
  | .error e => e.isConflict = false

theorem drawn_stages {β : Type} {bound : Nat} {f : Nat → Prog β} {ends : Conversation → β → Prop}
    (holding : Holding id w k current told)
    (h : ∀ extra told, Holding id w k current told → (f extra).Stages (AtRead id) ends told) :
    (if bound = 0 then pure 0 >>= f else draw bound >>= f).Stages (AtRead id) ends told := by
  split
  · exact h 0 told holding
  · exact ⟨atRead_of_not rfl, fun extra => h extra _ (holding.aside _ _ rfl rfl)⟩

theorem applied_stages (policy : Retry.Policy) (outcome : Outcome) (time : Instant)
    (holding : Holding id w k current told) :
    (applied policy current outcome time).Stages (AtRead id)
      (fun told result => Holding id w k current told ∧ Derived current result) told := by
  unfold applied
  cases outcome with
  | success | permanent message => exact ⟨holding, rfl, rfl⟩
  | transient message =>
      refine drawn_stages holding fun extra told holding => ?_
      refine stages_orAbort fun decision => ?_
      cases decision with
      | giveUp => exact ⟨holding, rfl, rfl⟩
      | retryAt delay retryAt =>
          refine ⟨atRead_of_not rfl, fun reply => ?_⟩
          cases reply with
          | error e => exact ⟨holding.aside _ _ rfl rfl, rfl⟩
          | ok _ => exact ⟨holding.aside _ _ rfl rfl, rfl, rfl⟩

theorem recordIn_stages (tried : Tries id (.attempt attempt) k told)
    (left : tries + k = writeTries) :
    (recordIn policy id attempt outcome tries).Stages (AtRead id) (GivesUp id) told := by
  induction tries generalizing k told with
  | zero =>
      obtain rfl : k = writeTries := by omega
      exact fun _ _ _ _ => ⟨.attempt attempt, tried⟩
  | succ tries ih =>
      refine get_stages tried (fun _ => rfl) fun current => ?_
      show Stages _ _ (if current.status = .queued ∧ current.attemptCount = attempt then _ else _) _
      by_cases waiting : current.status = .queued ∧ current.attemptCount = attempt
      · rw [if_pos waiting]
        refine ⟨atRead_of_not rfl, fun time => ?_⟩
        have holding := (tried.found waiting).aside .now time rfl rfl
        show Stages _ _ (if _ then abort else _) _
        split
        · trivial
        · refine (applied_stages policy outcome time holding).bind fun told result derived => ?_
          obtain ⟨holding, derived⟩ := derived
          match result with
          | .error e => exact givesUp_of_not derived
          | .ok (next, wrap) =>
              refine update_stages holding derived.1 derived.2 (fun _ => rfl) ?_ ?_
              · exact fun stored _ => stages_noteAll (givesUp_ok (wrap stored))
              · exact fun _ tried => ih tried (by omega)
      · rw [if_neg waiting]
        exact givesUp_ok (Recorded.stale current)

theorem enqueue_stages {n : Notification} (tried : Tries n.id .pending 0 told) :
    (enqueue n).Stages (AtRead n.id) (GivesUp n.id) told := by
  unfold enqueue
  cases n.status with
  | queued => exact givesUp_ok n
  | sent | failed => exact givesUp_of_not rfl
  | pending =>
      refine ⟨atRead_of_not rfl, fun time => ⟨atRead_of_not rfl, fun reply => ?_⟩⟩
      have tried := (tried.aside .now time rfl rfl).aside (.enqueue _) reply rfl rfl
      cases reply with
      | error e => exact givesUp_of_not rfl
      | ok _ => exact markQueuedIn_stages tried rfl

/-- A reset has tries of its own for its two loops, as it has stored a record between them. -/
theorem resetFailed_tries (id : Uuid) : (resetFailed id).Stages (AtRead id) (GivesUp id) [] := by
  unfold resetFailed
  have nothing : Tries id .failed 0 [] := Fresh.tries (.inl rfl)
  have reset := (resetIn_tries nothing rfl).and (resetIn_stages writeTries id [])
  refine Stages.bind (reset.mono fun _ _ _ both => both.1) fun told result both => ?_
  obtain ⟨givesUp, stored⟩ := both
  match result with
  | .error e =>
      rintro honest _ ⟨⟩
      exact givesUp honest e rfl
  | .ok (failed, pending) =>
      by_cases honest : told.Honest
      · obtain ⟨earlier, time, spoken, _, found⟩ := stored failed pending rfl
        have wrote : ⟨.update (failed.resetAt time), .ok pending⟩ ∈ told := by simp [spoken]
        have read : ⟨.get id, .ok (some failed)⟩ ∈ told := by simp [spoken, found]
        have own : failed.id = id := honest.found _ _ read
        obtain rfl : pending.id = id := (honest.stored _ _ wrote).trans own
        have fresh : told.Fresh := .inr ⟨earlier, _, spoken, List.cons_ne_nil _ _⟩
        refine Stages.bind (enqueue_stages fresh.tries) fun told result givesUp => ?_
        match result with
        | .ok queued => exact givesUp_ok queued
        | .error e =>
            show Stages _ _ (if e.isQueueUnavailable = true then _ else _) told
            by_cases refused : e.isQueueUnavailable = true
            · rw [if_pos refused]
              have other : e.isConflict = false := by cases e <;> first | rfl | cases refused
              refine ⟨atRead_of_not rfl, fun time => ⟨atRead_of_not rfl, fun reply => ?_⟩⟩
              cases reply <;> exact givesUp_of_not other
            · rw [if_neg refused]
              exact givesUp
      · exact stages_of_dishonest honest

end Service

/-- The call replaces the notification in a loop, and tries again when another writer was faster. -/
def Operation.Competes (id : Uuid) : Operation → Prop
  | .markQueued other | .record other _ _ | .resetFailed other => other = id
  | _ => False

/-- The call has come to its end because other writers were faster. -/
def Operation.conflicted : (op : Operation) → op.Result → Bool
  | .markQueued _, .error e | .record _ _ _, .error e | .resetFailed _, .error e => e.isConflict
  | _, _ => false

theorem Operation.stages {id : Uuid} {op : Operation} (d : Deployment) (competes : op.Competes id) :
    (op.program d).Stages (Service.AtRead id) (fun told result => told.Honest →
      op.conflicted result = true → ∃ w, Conversation.Tries id w Service.writeTries told) [] := by
  have fresh (w : Wanted) : Conversation.Tries id w 0 [] := Conversation.Fresh.tries (.inl rfl)
  cases op with
  | markQueued other =>
      obtain rfl : other = id := competes
      have stages : (Service.markQueued other).Stages (Service.AtRead other)
          (Service.GivesUp other) [] :=
        Service.markQueuedIn_stages (fresh .pending) rfl
      refine stages.imp fun told result givesUp honest conflict => ?_
      cases result with
      | ok _ => cases conflict
      | error e => exact givesUp honest e rfl conflict
  | record other attempt outcome =>
      obtain rfl : other = id := competes
      have stages : (Service.record d.policy other attempt outcome).Stages (Service.AtRead other)
          (Service.GivesUp other) [] := Service.recordIn_stages (fresh (.attempt attempt)) rfl
      refine stages.imp fun told result givesUp honest conflict => ?_
      cases result with
      | ok _ => cases conflict
      | error e => exact givesUp honest e rfl conflict
  | resetFailed other =>
      obtain rfl : other = id := competes
      refine (Service.resetFailed_tries other).imp fun told result givesUp honest conflict => ?_
      cases result with
      | ok _ => cases conflict
      | error e => exact givesUp honest e rfl conflict
  | create | get | list | enqueue | retryFailed | process => exact competes.elim

end Courier
