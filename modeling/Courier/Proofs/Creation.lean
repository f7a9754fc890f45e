import Courier.Proofs.Handling
import Courier.Proofs.Undisturbed

namespace Courier

open Prog

/-- The recipient, without the blanks around it, and the payload are acceptable. -/
def Submission.IsValid (s : Submission) : Prop :=
  Recipient.validate s.channel (Text.trimmed s.recipient) = .ok () ∧
    Payload.validate s.channel s.payload = .ok ()

/-- The record of a submission that was accepted and has not been queued. -/
structure Submission.Begun (s : Submission) (n : Notification) : Prop where
  status : n.status = .pending
  version : n.version = 0
  attemptCount : n.attemptCount = 0
  content : ∃ id created,
    n = Notification.create id { s with recipient := Text.trimmed s.recipient } created

namespace Backend

/-- Nothing has the identifier: no record and no job. -/
structure Fresh (b : Backend) (id : Uuid) : Prop where
  unstored : b.store.find? id = none
  jobless : ∀ job ∈ b.queue.liveJobs, job.notificationId ≠ id

/-- What was there before is there as it was and in its place, and after it come at most one record
and one waiting job. -/
structure Gains (b : Backend) (record? : Option Notification) (job? : Option Job) (b' : Backend) :
    Prop where
  records : b'.store.records = b.store.records ++ record?.toList
  waiting : b'.queue.waiting =
    b.queue.waiting ++ (job?.map (Queue.Entry.mk b.queue.nextSequence)).toList
  leased : b'.queue.leased = b.queue.leased

/-- All that there is of a notification: its records and its live jobs. -/
structure Has (b : Backend) (id : Uuid) (records : List Notification) (jobs : List Job) : Prop where
  records : (b.store.records.filter fun n => n.id == id) = records
  jobs : (b.queue.liveJobs.filter fun job => job.notificationId == id) = jobs

variable {b between b' : Backend} {id : Uuid} {n m : Notification} {job : Job} {job? : Option Job}

theorem Fresh.records_nil (fresh : b.Fresh id) :
    (b.store.records.filter fun n => n.id == id) = [] :=
  List.filter_eq_nil_iff.mpr (List.find?_eq_none.mp fresh.unstored)

theorem Fresh.jobs_nil (fresh : b.Fresh id) :
    (b.queue.liveJobs.filter fun job => job.notificationId == id) = [] :=
  List.filter_eq_nil_iff.mpr fun job mem same => fresh.jobless job mem (eq_of_beq same)

theorem Fresh.absent (fresh : b.Fresh job.notificationId) : b.queue.isWaiting job.key = false := by
  apply List.any_eq_false.mpr
  intro e mem same
  have own : e.job.notificationId = job.notificationId := (Prod.mk.inj (eq_of_beq same)).1
  exact fresh.jobless e.job (List.mem_append_left _ (List.mem_map_of_mem mem)) own

theorem Fresh.unleased (fresh : b.Fresh job.notificationId) :
    (b.queue.leased.filter fun held => held.entry.job.key != job.key) = b.queue.leased := by
  apply List.filter_eq_self.mpr
  intro held mem
  refine bne_iff_ne.mpr fun same => ?_
  have live : held.entry.job ∈ b.queue.liveJobs := List.mem_append_right _ (List.mem_map_of_mem mem)
  exact fresh.jobless _ live (Prod.mk.inj same).1

theorem Gains.untouched {record? : Option Notification} (gains : b.Gains record? job? between)
    (same : between.Untouched b') : b.Gains record? job? b' := by
  obtain ⟨_, _, _, rfl⟩ := same
  exact ⟨gains.records, gains.waiting, gains.leased⟩

theorem gains_adding (b : Backend) (n : Notification) : b.Gains (some n) none (b.adding n) :=
  ⟨rfl, (List.append_nil _).symm, rfl⟩

theorem gains_pushing (fresh : b.Fresh job.notificationId) (n : Notification) :
    b.Gains (some n) (some job) ((b.adding n).pushing job) := by
  have pushed := Queue.push_of_absent fresh.absent
  refine ⟨rfl, ?_, ?_⟩
  · show (b.queue.push job).waiting = _
    rw [pushed]
    rfl
  · show (b.queue.push job).leased = _
    rw [pushed]
    exact fresh.unleased

theorem adding_putting (fresh : b.Fresh n.id) (same : m.id = n.id) :
    (b.adding n).putting m = b.adding m := by
  have others : (b.store.records.map fun old => if old.id = m.id then m else old) =
      b.store.records := by
    refine (List.map_congr_left fun old mem => if_neg fun own => ?_).trans (List.map_id' _)
    exact List.find?_eq_none.mp fresh.unstored old mem (beq_iff_eq.mpr (own.trans same))
  rw [same] at others
  simp [adding, putting, Store.put, others, same]

theorem Gains.has (gains : b.Gains (some n) job? b') (fresh : b.Fresh n.id)
    (own : ∀ job ∈ job?, job.notificationId = n.id) : b'.Has n.id [n] job?.toList := by
  constructor
  · rw [gains.records, List.filter_append, fresh.records_nil]
    simp
  · have jobless := fresh.jobs_nil
    simp only [Queue.liveJobs, List.filter_append, List.append_eq_nil_iff] at jobless
    rw [Queue.liveJobs, gains.waiting, gains.leased, List.map_append, List.filter_append,
      List.filter_append, jobless.1, jobless.2]
    cases job? with
    | none => rfl
    | some job => simp [own job rfl]

end Backend

theorem Recipient.refusal {channel : Channel} {recipient : String} {e : Error}
    (refused : validate channel recipient = .error e) : ∃ text, e = .validation text := by
  unfold validate at refused
  split at refused
  · cases refused
  · cases refused
    exact ⟨_, rfl⟩

theorem Payload.refusal {channel : Channel} {payload : Json} {e : Error}
    (refused : validate channel payload = .error e) : ∃ text, e = .validation text := by
  cases payload with
  | object members =>
      simp only [validate] at refused
      split at refused
      · cases refused
      · cases refused
        exact ⟨_, rfl⟩
  | _ =>
      cases refused
      exact ⟨_, rfl⟩

namespace Service

/-- How a creation may end. -/
inductive Ending where
  /-- The submission is not acceptable. -/
  | refused
  /-- The record could not be stored. -/
  | unstored
  /-- The job was refused by the queue. -/
  | unqueued
  /-- The record could not be read again, or not be written, when the job had been pushed. -/
  | unmarked
  | queued

/-- What is answered, and what is stored and waits, when a creation has ended so. -/
inductive Ended (s : Submission) (b : Backend) (conv : Conversation) :
    Ending → Except Error Notification → Backend → Prop
  | refused {text : String} {b' : Backend} (invalid : ¬s.IsValid) (same : b.Untouched b') :
      Ended s b conv .refused (.error (.validation text)) b'
  | unstored {n : Notification} {e : Error} {b' : Backend} (valid : s.IsValid)
      (lost : ⟨.insert n, .error e⟩ ∈ conv) (same : b.Untouched b') :
      Ended s b conv .unstored (.error e) b'
  | unqueued {n : Notification} {job : Job} {e : Error} {text : String} {b' : Backend}
      (valid : s.IsValid) (begun : s.Begun n) (refused : ⟨.enqueue job, .error e⟩ ∈ conv)
      (gains : b.Gains (some n) none b') (has : b'.Has n.id [n] []) :
      Ended s b conv .unqueued (.error (.queueUnavailable text)) b'
  | unmarked {n : Notification} {time : Instant} {text : String} {b' : Backend} (valid : s.IsValid)
      (begun : s.Begun n) (read : ⟨.now, time⟩ ∈ conv)
      (pushed : ⟨.enqueue (.immediate n.id 0 time), .ok ()⟩ ∈ conv)
      (lost : ∃ x ∈ conv, Conversation.isLoss x = true)
      (gains : b.Gains (some n) (some (.immediate n.id 0 time)) b')
      (has : b'.Has n.id [n] [.immediate n.id 0 time]) :
      Ended s b conv .unmarked (.error (.storeUnavailable text)) b'
  | queued {n : Notification} {time : Instant} {b' : Backend} (valid : s.IsValid)
      (accepted : s.Accepted n.id n) (read : ⟨.now, time⟩ ∈ conv)
      (gains : b.Gains (some n) (some (.immediate n.id 0 time)) b')
      (has : b'.Has n.id [n] [.immediate n.id 0 time]) : Ended s b conv .queued (.ok n) b'

variable {s : Submission} {b base b' : Backend} {told conv : Conversation}
  {result : Except Error Notification} {outcome : Option (Except Error Notification)}
  {ending other : Ending}

theorem not_untouched_of_gains {n : Notification} {job? : Option Job}
    (gains : b.Gains (some n) job? b') : ¬b.Untouched b' := by
  rintro ⟨_, _, _, rfl⟩
  have more := congrArg List.length gains.records
  simp [Backend.shifted] at more

theorem Ended.unique (first : Ended s b conv ending result b')
    (second : Ended s b conv other result b') :
    other = ending := by
  cases first with
  | refused invalid =>
      cases second with
      | refused => rfl
      | unstored valid => exact absurd valid invalid
  | unstored valid _ same =>
      cases second with
      | unstored => rfl
      | refused invalid => exact absurd valid invalid
      | unqueued _ _ _ gains => exact absurd same (not_untouched_of_gains gains)
      | unmarked _ _ _ _ _ gains => exact absurd same (not_untouched_of_gains gains)
  | unqueued _ _ _ gains =>
      cases second with
      | unqueued => rfl
      | unstored _ _ same => exact absurd same (not_untouched_of_gains gains)
  | unmarked _ _ _ _ _ gains =>
      cases second with
      | unmarked => rfl
      | unstored _ _ same => exact absurd same (not_untouched_of_gains gains)
  | queued =>
      cases second with
      | queued => rfl

theorem Enqueued.ended {n : Notification} (enqueued : Enqueued n (b.adding n) outcome conv b')
    (valid : s.IsValid) (begun : s.Begun n) (fresh : b.Fresh n.id) :
    ∃ result ending, outcome = some result ∧ Ended s b conv ending result b' := by
  have first := begun.attemptCount
  cases enqueued with
  | refused refused same =>
      have gains := (b.gains_adding n).untouched same
      exact ⟨_, _, rfl, .unqueued valid begun refused gains (gains.has fresh (by simp))⟩
  | @unmarked time _ _ read pushed lost same =>
      rw [first] at pushed same
      have job : b.Fresh (Job.immediate n.id 0 time).notificationId := fresh
      have gains := (Backend.gains_pushing job n).untouched same
      exact ⟨_, _, rfl, .unmarked valid begun read pushed lost gains
        (gains.has fresh (by simp [Job.immediate]))⟩
  | @queued time written _ _ read pushed same =>
      rw [first] at pushed same
      let m := Store.merged n (n.queuedFrom written)
      have own : m.id = n.id := rfl
      have job : b.Fresh (Job.immediate m.id 0 time).notificationId := fresh
      have gains : b.Gains (some m) (some (.immediate m.id 0 time)) b' := by
        apply (Backend.gains_pushing job m).untouched
        rw [← Backend.adding_putting fresh own]
        exact same
      have accepted : s.Accepted m.id m := by
        obtain ⟨id, created, rfl⟩ := begun.content
        exact ⟨created, written, rfl⟩
      exact ⟨_, _, rfl, .queued valid accepted read gains
        (gains.has fresh (by simp [Job.immediate]))⟩

theorem create_falters (s : Submission) (b : Backend) :
    (create s).Falters [] (fun outcome conv b' =>
    (∀ id, ⟨.freshId, id⟩ ∈ conv → b.Fresh id) →
      ∃ result ending, outcome = some result ∧ Ended s b conv ending result b') b := by
  unfold create
  simp only []
  split
  · rename_i e refused
    obtain ⟨text, rfl⟩ := Recipient.refusal refused
    have invalid : ¬s.IsValid := fun valid => nomatch refused.symm.trans valid.1
    exact onward_pure fun _ => ⟨_, _, rfl, .refused invalid (.refl b)⟩
  · rename_i reached
    split
    · rename_i e refused
      obtain ⟨text, rfl⟩ := Payload.refusal refused
      have invalid : ¬s.IsValid := fun valid => nomatch refused.symm.trans valid.2
      exact onward_pure fun _ => ⟨_, _, rfl, .refused invalid (.refl b)⟩
    · rename_i complete
      have valid : s.IsValid := ⟨reached, complete⟩
      apply looks_now (.refl b)
      intro created _ same
      apply looks_freshId same
      intro id after same
      by_cases fresh : b.Fresh id
      · let n := Notification.create id { s with recipient := Text.trimmed s.recipient } created
        have begun : s.Begun n := ⟨rfl, rfl, rfl, id, created, rfl⟩
        apply lone_insert same fresh.unstored
        · intro b' same
          refine onward_pure fun _ => ⟨_, _, rfl, .unstored (n := n) valid ?_ same⟩
          exact List.mem_append_right _ List.mem_cons_self
        · intro b' same
          apply onward_note
          have stored : (b.adding n).store.find? n.id = some n :=
            (Store.find?_append fresh.unstored n.id).trans (if_pos rfl)
          exact (enqueue_lone same stored rfl).mono fun _ _ _ enqueued _ =>
            enqueued.ended valid begun fresh
      -- an identifier that was not fresh is among what was said, whatever comes then
      · refine Meets.mono (meets_anything _ after) fun _ conv _ _ allFresh => absurd ?_ fresh
        exact allFresh id (List.mem_append_left _ (List.mem_append_right _ List.mem_cons_self))

/-- Whichever accesses of the store and the queue fail, a creation under a fresh identifier ends in
exactly one of five ways. -/
theorem create_ended (run : (create s).Ends b conv outcome b')
    (fresh : ∀ id, ⟨.freshId, id⟩ ∈ conv → b.Fresh id) :
    ∃ result, outcome = some result ∧ ∃! ending, Ended s b conv ending result b' := by
  have home := (create_works s).mono fun _ => Request.not_isForeign_of_isWork
  obtain ⟨result, ending, same, ended⟩ := run.meets home (create_falters s b) fresh
  exact ⟨result, same, ending, ended, fun _ second => ended.unique second⟩

namespace Sample

open Pipeline.Sample (submission choice clock)

def untouched : Backend := (Pipeline.initial clock).backend

/-- A creation that loses the store when its job has been pushed. -/
def creation : Conversation × Prog (Except Error Notification) × Backend :=
  (create submission).falter choice (List.replicate 5 (true, true) ++ [(false, true)]) untouched

end Sample

/-- The answer is an error, though the notification is stored and its job waits: of the five endings
this is just one. -/
theorem create_ended_when_store_lost :
    Sample.creation.2.1 = .done (.error Store.unavailableError) ∧
      (∀ id, ⟨.freshId, id⟩ ∈ Sample.creation.1 → Sample.untouched.Fresh id) ∧
      ∃ result, some (.error Store.unavailableError) = some result ∧
        ∃! ending, Ended Pipeline.Sample.submission Sample.untouched Sample.creation.1 ending result
          Sample.creation.2.2 := by
  have ended : Sample.creation.2.1 = .done (.error Store.unavailableError) := by
    with_unfolding_all rfl
  have fresh (id : Uuid) (_ : ⟨.freshId, id⟩ ∈ Sample.creation.1) : Sample.untouched.Fresh id :=
    ⟨rfl, fun job live => nomatch live⟩
  have course : (create Pipeline.Sample.submission).Goes .faltering Sample.untouched
      Sample.creation.1
      (.done (.error Store.unavailableError)) Sample.creation.2.2 :=
    ended ▸ Prog.goes_falter _ _ _
  exact ⟨ended, fresh, create_ended course.ends fresh⟩

end Service
end Courier
