import Courier.Proofs.Aside
import Courier.Proofs.Resends

namespace Courier

open Prog

namespace Service

open Race (Beyond)

variable {policy : Retry.Policy} {lease : Lease} {told : Conversation} {b : Backend}
  {n : Notification} {outcome : Outcome}

/-- All that marking a pending record as queued can come to. -/
inductive MarkedAside (lease : Lease) (n : Notification) :
    Option (Except Error Notification) → Conversation → Backend → Prop
  | lost {e : Error} {conv : Conversation} {b : Backend} (keeps : b.Keeps lease (some n)) :
      MarkedAside lease n (some (.error e)) conv b
  | queued {time : Instant} {conv : Conversation} {b : Backend}
      (keeps : b.Keeps lease (some (Store.merged n (n.queuedFrom time)))) :
      MarkedAside lease n (some (.ok (Store.merged n (n.queuedFrom time)))) conv b

theorem markQueued_aside (own : n.id = lease.job.notificationId) (pending : n.status = .pending)
    (h : b.Keeps lease (some n)) :
    (markQueued lease.job.notificationId).Aside lease told (MarkedAside lease n) b := by
  apply aside_get h
  rintro _ b h (rfl | rfl)
  · exact onward_pure (.lost h)
  · show Aside _ _ _ (if n.status = .pending then _ else _) _
    rw [if_pos pending]
    apply aside_look rfl h
    intro time b h
    have same : (n.queuedFrom time).id = lease.job.notificationId := own
    have current : n.version = (n.queuedFrom time).version := rfl
    apply aside_update same current h
    · intro b h
      exact onward_pure (.lost h)
    · intro b h
      exact onward_note (onward_pure (.queued h))

/-- What applying an outcome comes to: nothing has been written, and the retry job is another
one. -/
structure AppliedAside (policy : Retry.Policy) (lease : Lease) (cur : Notification) (time : Instant)
    (outcome : Outcome) (result : Option (Except Error (Notification × (Notification → Recorded))))
    (_ : Conversation) (b : Backend) : Prop where
  keeps : b.Keeps lease (some cur)
  reported : ∀ next wrap, result = some (.ok (next, wrap)) →
    Reported policy cur time outcome next wrap

theorem drawn_aside {α : Type} {bound : Nat} {f : Nat → Prog α}
    {post : Option α → Conversation → Backend → Prop} {found : Option Notification}
    (h : b.Keeps lease found)
    (rest : ∀ extra conv (b : Backend), b.Keeps lease found → (f extra).Aside lease conv post b) :
    (if bound = 0 then pure 0 >>= f else draw bound >>= f).Aside lease told post b := by
  split
  · exact rest 0 told b h
  · apply aside_look rfl h
    intro extra b h
    exact rest extra _ b h

theorem applied_aside {cur : Notification} {time : Instant}
    (own : lease.job.key = (cur.id, cur.attemptCount)) (h : b.Keeps lease (some cur)) :
    (applied policy cur outcome time).Aside lease told
      (AppliedAside policy lease cur time outcome) b := by
  unfold applied
  cases outcome with
  | success =>
      refine onward_pure ⟨h, fun next wrap same => ?_⟩
      cases same
      exact .sent
  | permanent message =>
      refine onward_pure ⟨h, fun next wrap same => ?_⟩
      cases same
      exact .refused
  | transient message =>
      apply drawn_aside h
      intro extra conv b h
      apply onward_orAbort
      · exact fun _ => ⟨h, fun _ _ same => nomatch same⟩
      · intro decision decided
        cases decision with
        | giveUp =>
            refine onward_pure ⟨h, fun next wrap same => ?_⟩
            cases same
            exact .exhausted (Retry.Policy.decide?_eq_giveUp.mp decided)
        | retryAt delay retryAt =>
            have left := Retry.Policy.left_of_decided decided
            -- with attempts left, the retry is counted one higher than the job that is held
            have next := attemptsAfter_of_left left
            have other :
                lease.job.key ≠ (⟨cur.id, attemptsAfter policy cur, time, retryAt⟩ : Job).key := by
              rw [own]
              intro same
              have equal : cur.attemptCount = attemptsAfter policy cur := (Prod.mk.inj same).2
              omega
            apply aside_push other h
            intro reply b h
            cases reply with
            | error e => exact onward_pure ⟨h, fun _ _ same => nomatch same⟩
            | ok _ =>
                refine onward_note (onward_pure ⟨h, fun next wrap same => ?_⟩)
                cases same
                exact .retried left decided

inductive RecordedAside (lease : Lease) (cur : Notification) :
    Option (Except Error Recorded) → Conversation → Backend → Prop
  | unrecorded {result : Option (Except Error Recorded)} {conv : Conversation} {b : Backend}
      (failed : ∀ r, result ≠ some (.ok r)) (keeps : b.Keeps lease (some cur)) :
      RecordedAside lease cur result conv b
  | recorded {m : Notification} {r : Recorded} {conv : Conversation} {b : Backend}
      (dealt : Beyond lease.job.attempt m) (keeps : b.Keeps lease (some m)) :
      RecordedAside lease cur (some (.ok r)) conv b

theorem record_aside {cur : Notification} (queued : cur.status = .queued)
    (own : lease.job.key = (cur.id, cur.attemptCount)) (h : b.Keeps lease (some cur)) :
    (record policy lease.job.notificationId lease.job.attempt outcome).Aside lease told
      (RecordedAside lease cur) b := by
  obtain ⟨ownId, current⟩ := Prod.mk.inj own
  apply aside_get h
  rintro _ b h (rfl | rfl)
  · exact onward_pure (.unrecorded (fun _ same => nomatch same) h)
  · show Aside _ _ _
      (if cur.status = .queued ∧ cur.attemptCount = lease.job.attempt then _ else _) _
    rw [if_pos ⟨queued, current.symm⟩]
    apply aside_look rfl h
    intro time b h
    show Aside _ _ _ (if Notification.attemptLimit ≤ cur.attemptCount + 1 then abort else _) b
    split
    · exact onward_abort (.unrecorded (fun _ same => nomatch same) h)
    · apply (applied_aside own h).bind
      · intro conv b applied
        exact .unrecorded (fun _ same => nomatch same) applied.keeps
      · intro result conv b applied
        match result with
        | .error e => exact onward_pure (.unrecorded (fun _ same => nomatch same) applied.keeps)
        | .ok (next, wrap) =>
            have reported := applied.reported next wrap rfl
            have same : next.id = lease.job.notificationId := reported.id_eq.trans ownId.symm
            apply aside_update same reported.version_eq.symm applied.keeps
            · intro b h
              exact onward_pure (.unrecorded (fun _ same => nomatch same) h)
            · intro b h
              apply onward_noteAll
              have beyond : Beyond cur.attemptCount (Store.merged cur next) :=
                reported.beyond queued
              exact onward_pure (.recorded (current ▸ beyond) h)

end Service

/-- The record is as it was, or it was pending and has been marked as queued. -/
inductive Worker.OnlyMarked (before : Option Notification) : Option Notification → Prop
  | same : OnlyMarked before before
  | marked {n : Notification} {time : Instant} (was : before = some n)
      (pending : n.status = .pending) :
      OnlyMarked before (some (Store.merged n (n.queuedFrom time)))

/-- The record does not wait for the attempt of the lease, nor will it. -/
def Worker.DealtWith (lease : Lease) (found : Option Notification) : Prop :=
  ∀ n, found = some n → n.status.isTerminal = true ∨ n.attemptCount ≠ lease.job.attempt

namespace Worker

open Service (MarkedAside RecordedAside markQueued_aside record_aside)

variable {policy : Retry.Policy} {emitters : Emitters} {limit : Duration} {lease : Lease}
  {told conv : Conversation} {b b' : Backend} {n : Notification}
  {found before : Option Notification}

/-- All that claiming a notification for a held job can come to. -/
inductive ClaimedAside (lease : Lease) (n : Notification) :
    Option (Except Error (Option Notification)) → Conversation → Backend → Prop
  | failed {e : Error} {conv : Conversation} {b : Backend} (keeps : b.Keeps lease (some n)) :
      ClaimedAside lease n (some (.error e)) conv b
  | stale {conv : Conversation} {b : Backend} (dealt : DealtWith lease (some n))
      (keeps : b.Keeps lease (some n)) : ClaimedAside lease n (some (.ok none)) conv b
  | claimed {m : Notification} {conv : Conversation} {b : Backend} (queued : m.status = .queued)
      (own : lease.job.key = (m.id, m.attemptCount)) (marked : OnlyMarked (some n) (some m))
      (keeps : b.Keeps lease (some m)) : ClaimedAside lease n (some (.ok (some m))) conv b

theorem claim_aside (h : b.Keeps lease (some n)) :
    (claim n lease.job.attempt).Aside lease told (ClaimedAside lease n) b := by
  have own : n.id = lease.job.notificationId := Store.id_of_find? h.record
  unfold claim
  split
  · rename_i unwanted
    rw [Bool.or_eq_true, bne_iff_ne] at unwanted
    refine onward_note (onward_pure (.stale (fun m same => ?_) h))
    cases same
    exact unwanted
  · rename_i wanted
    simp only [Bool.or_eq_true, bne_iff_ne, not_or, Decidable.not_not] at wanted
    obtain ⟨unsettled, current⟩ := wanted
    have key : lease.job.key = (n.id, n.attemptCount) := by rw [own, current, Job.key]
    split
    · rename_i pending
      rw [own]
      apply (markQueued_aside own pending h).bind
      · intro conv b marked
        cases marked
      · intro result conv b marked
        cases marked with
        | lost keeps => exact onward_pure (.failed keeps)
        | @queued time _ _ keeps =>
            show Aside _ _ _ (if (Store.merged n (n.queuedFrom time)).status = .queued ∧
              (Store.merged n (n.queuedFrom time)).attemptCount = lease.job.attempt then _ else _) _
            rw [if_pos ⟨rfl, current⟩]
            exact onward_pure (.claimed rfl key (.marked rfl pending) keeps)
    · rename_i unpending
      have queued : n.status = .queued := by
        cases status : n.status with
        | pending => exact absurd status unpending
        | queued => rfl
        | sent | failed => exact absurd (congrArg Status.isTerminal status) unsettled
      exact onward_pure (.claimed queued key .same h)

theorem attempt_aside (emitters : Emitters) (limit : Duration) (n : Notification)
    (h : b.Keeps lease found) :
    (attempt emitters limit n).Aside lease told (fun _ _ b => b.Keeps lease found) b := by
  unfold attempt
  split
  · exact onward_pure h
  · split
    · exact onward_pure h
    · apply aside_ask h
      intro before c step h answered
      cases answered
      match c.delivery with
      | some (.ok ()) => exact onward_pure h
      | some (.error e) => exact onward_note (onward_pure h)
      | none => exact onward_pure h

/-- What becomes of a held job: it is still held and its record at most marked as queued, or it was
let go when the record had no need of it any more. -/
inductive Custody (lease : Lease) (before : Option Notification) :
    Option JobOutcome → Conversation → Backend → Prop
  | kept {result : Option JobOutcome} {after : Option Notification}
      {conv : Conversation} {b : Backend}
      (unreleased : result = none ∨ result = some .retained) (marked : OnlyMarked before after)
      (keeps : b.Keeps lease after) : Custody lease before result conv b
  | released {result : JobOutcome} {conv : Conversation} {b : Backend}
      (released : result = .skipped ∨ ∃ r, result = .recorded r)
      (dealt : DealtWith lease (b.store.find? lease.job.notificationId)) :
      Custody lease before (some result) conv b

theorem Custody.of_kept {result : Option JobOutcome} (h : Custody lease before result conv b)
    (unreleased : result = none ∨ result = some .retained) : lease ∈ b.queue.leases ∧
      OnlyMarked before (b.store.find? lease.job.notificationId) := by
  cases h with
  | kept _ marked keeps => exact ⟨keeps.held, keeps.record ▸ marked⟩
  | released released => rcases released with rfl | ⟨r, rfl⟩ <;> simp at unreleased

theorem Custody.of_released {result : JobOutcome} (h : Custody lease before (some result) conv b)
    (released : result = .skipped ∨ ∃ r, result = .recorded r) :
    DealtWith lease (b.store.find? lease.job.notificationId) := by
  cases h with
  | kept unreleased => rcases released with rfl | ⟨r, rfl⟩ <;> simp at unreleased
  | released _ dealt => exact dealt

theorem release_aside {result : JobOutcome}
    (released : result = .skipped ∨ ∃ r, result = .recorded r) (dealt : DealtWith lease found)
    (h : b.Keeps lease found) :
    (ack lease >>= fun _ => pure result).Aside lease told (Custody lease before) b := by
  apply aside_ack h
  intro reply after record
  have done (conv : Conversation) : Custody lease before (some result) conv after :=
    .released released (record ▸ dealt)
  match reply with
  | .ok true => exact onward_pure (done _)
  | .ok false | .error _ => exact onward_log (onward_pure (done _))

theorem process_aside (h : b.Keeps lease before) :
    (process policy emitters limit lease).Aside lease told (Custody lease before) b := by
  apply aside_get h
  rintro _ b h (rfl | rfl)
  · exact onward_log (onward_pure (.kept (.inr rfl) .same h))
  · cases before with
    | none =>
        have missing : DealtWith lease none := fun _ same => nomatch same
        exact onward_log (release_aside (.inl rfl) missing h)
    | some n =>
        show Aside _ _ _ (claim n lease.job.attempt >>= _) _
        apply (claim_aside h).bind
        · intro conv b claimed
          cases claimed
        · intro result conv b claimed
          cases claimed with
          | failed keeps => exact onward_log (onward_pure (.kept (.inr rfl) .same keeps))
          | stale dealt keeps => exact release_aside (.inl rfl) dealt keeps
          | @claimed m _ _ queued own marked keeps =>
              apply (attempt_aside emitters limit m keeps).bind
              · intro conv b keeps
                exact .kept (.inl rfl) marked keeps
              · intro outcome conv b keeps
                apply onward_note
                apply (record_aside queued own keeps).bind
                · intro conv b recorded
                  cases recorded with
                  | unrecorded _ keeps => exact .kept (.inl rfl) marked keeps
                · intro result conv b recorded
                  cases recorded with
                  | unrecorded failed keeps =>
                      cases result with
                      | ok r => exact absurd rfl (failed r)
                      | error e => exact onward_log (onward_pure (.kept (.inr rfl) marked keeps))
                  | recorded dealt keeps =>
                      refine release_aside (.inr ⟨_, rfl⟩) (fun x same => ?_) keeps
                      cases same
                      exact dealt.imp_right fun queued => Nat.ne_of_gt queued.2

end Worker

theorem Backend.stored_of_shown {b : Backend} {c : Choice} {r : Request} {step : Step r.Reply}
    {id : Uuid} {n : Notification} (answered : b.answer c r = some step)
    (shown : Conversation.Shown id n ⟨r, step.reply⟩) : step.backend.store.find? id = some n := by
  obtain ⟨reply, after, events⟩ := step
  cases shown with
  | read =>
      obtain ⟨found, same⟩ := answer_get answered rfl
      obtain rfl : after = b := same
      exact found
  | stored own =>
      obtain ⟨old, found, _, rfl, same⟩ := answer_update answered rfl
      obtain rfl : after = _ := same
      exact own ▸ Store.find?_put_self found

namespace Prog

variable {α : Type} {p q : Prog α} {w w' : Surroundings} {b b' : Backend} {conv told : Conversation}
  {id : Uuid} {n : Notification}

theorem Goes.wider (others : ∀ b b', w.others b b' → w'.others b b')
    (allows : ∀ b c r, w.allows b c r → w'.allows b c r) (course : p.Goes w b conv q b') :
    p.Goes w' b conv q b' := by
  induction course with
  | here => exact .here
  | log onward ih => exact .log ih
  | ask before allowed answered onward ih =>
      exact .ask (others _ _ before) (allows _ _ _ allowed) answered ih

theorem Goes.silent (course : p.Goes w b conv q b') (nothing : conv = []) : b' = b := by
  induction course with
  | here => rfl
  | log onward ih => exact ih nothing
  | ask => cases nothing

theorem Goes.stored_of_shows (course : p.Goes w b conv q b') (shows : conv.Shows id n) :
    b'.store.find? id = some n := by
  obtain ⟨told, x, split, shown⟩ := shows
  induction course generalizing told with
  | here => exact absurd split (by simp)
  | log onward ih => exact ih _ split
  | @ask r next q b before b' c step conv others allowed answered onward ih =>
      cases told with
      | cons y told => exact ih _ (List.cons.inj split).2
      | nil =>
          obtain ⟨rfl, rfl⟩ := List.cons.inj split
          rw [onward.silent rfl]
          exact Backend.stored_of_shown answered shown

end Prog

namespace Worker

variable {policy : Retry.Policy} {emitters : Emitters} {limit : Duration} {lease : Lease}
  {q : Prog JobOutcome} {conv : Conversation} {b b' : Backend}

theorem Handles.sends_le {result : Option JobOutcome} (h : Handles policy limit lease result conv) :
    conv.sends.length ≤ 1 := by
  have unsent {part : Conversation} (inward : ∀ x ∈ part, x.1.isInward = true) : part.sends = [] :=
    List.filter_eq_nil_iff.mpr fun x mem => by simp [Request.not_isSend (inward x mem)]
  cases h with
  | unsent inward => simp [unsent inward]
  | sent inward _ silent =>
      rw [Conversation.sends_append, unsent inward, ← List.singleton_append,
        Conversation.sends_append, unsent silent]
      exact Nat.le_refl 1

theorem waits_at_send {channel : Channel} {recipient : String} {message : Message} {wait : Duration}
    {next : Option (Except EmitError Unit) → Prog JobOutcome}
    (course : (process policy emitters limit lease).Goes .any b conv
      (.ask (.send channel recipient message wait) next) b') :
    ∃ n, b'.store.find? lease.job.notificationId = some n ∧ n.status = .queued ∧
      n.attemptCount = lease.job.attempt := by
  -- the message is handed over, whatever the provider says to it
  have answered : b'.answer Pipeline.Sample.choice (.send channel recipient message wait) =
      some { reply := Pipeline.Sample.choice.delivery, backend := b' } := rfl
  have sent := course.snoc trivial trivial answered
  obtain ⟨result, more, handled⟩ := handles_of_course sent
  rw [List.append_assoc] at handled
  obtain ⟨⟨n, shows, queued, current⟩, _⟩ := handled.of_split rfl
  exact ⟨n, course.stored_of_shows shows, queued, current⟩

/-- What becomes of a job in the hands of a worker, who has come as far as `q`. -/
structure JobKept (lease : Lease) (b b' : Backend) (conv : Conversation) (q : Prog JobOutcome) :
    Prop where
  /-- A job that is retained is still held under its lease, with its record at most marked as
  queued. -/
  retained : q = .done .retained ∨ q = .abort → lease ∈ b'.queue.leases ∧
    OnlyMarked (b.store.find? lease.job.notificationId) (b'.store.find? lease.job.notificationId)
  /-- A job that is let go is one that its record has no need of. -/
  released : (q = .done .skipped ∨ ∃ r, q = .done (.recorded r)) →
    DealtWith lease (b'.store.find? lease.job.notificationId)
  sent_once : conv.sends.length ≤ 1
  /-- A message is handed over while the record waits for the attempt. -/
  awaited : ∀ channel recipient message wait next,
    q = .ask (.send channel recipient message wait) next →
      ∀ before, (Surroundings.aside lease.job.notificationId).others b' before →
        ∃ n, before.store.find? lease.job.notificationId = some n ∧ n.status = .queued ∧
          n.attemptCount = lease.job.attempt

/-- Whatever accesses of the store and the queue fail while a worker handles a job, and whatever
others do about other notifications, no job is lost that is needed. -/
theorem needed_job_kept (leased : lease ∈ b.queue.leases)
    (course :
      (process policy emitters limit lease).Goes (.aside lease.job.notificationId) b conv q b') :
    JobKept lease b b' conv q := by
  have handling : (process policy emitters limit lease).Aside lease []
      (Custody lease (b.store.find? lease.job.notificationId)) b := process_aside ⟨rfl, leased⟩
  have custody := handling.goes course
  have anyway : (process policy emitters limit lease).Goes .any b conv q b' :=
    course.wider (fun _ _ _ => trivial) fun _ _ _ _ => trivial
  constructor
  case retained =>
    rintro (rfl | rfl)
    · exact Custody.of_kept custody (.inr rfl)
    · exact Custody.of_kept custody (.inl rfl)
  case released =>
    rintro (rfl | ⟨r, rfl⟩)
    · exact Custody.of_released custody (.inl rfl)
    · exact Custody.of_released custody (.inr ⟨r, rfl⟩)
  case sent_once =>
    obtain ⟨result, more, handled⟩ := handles_of_course anyway
    have most := handled.sends_le
    rw [Conversation.sends_append, List.length_append] at most
    omega
  case awaited =>
    rintro channel recipient message wait next rfl before others
    obtain ⟨n, stored, waits⟩ := waits_at_send anyway
    exact ⟨n, (Backend.record_of_meanwhile others).trans stored, waits⟩

namespace Sample

open Pipeline.Sample (deployment created choice clock id)

def firstLease : Lease := ⟨.immediate id 0 clock, id, .ofSecond 60⟩

def leased : Backend :=
  { created with queue := (created.queue.tryLease clock (.ofSeconds 60) id).2 }

def handling : Conversation × Prog JobOutcome × Backend :=
  (process deployment.policy deployment.emitters deployment.sendLimit firstLease).falter choice
    [(true, true), (true, true), (false, true)] leased

end Sample

/-- The message was handed over and its outcome was not recorded, so the job is still held. -/
theorem needed_job_kept_unrecorded :
    Sample.firstLease ∈ Sample.leased.queue.leases ∧ Sample.handling.2.1 = .done .retained ∧
      (Conversation.sends Sample.handling.1).length = 1 ∧
      Sample.firstLease ∈ Sample.handling.2.2.queue.leases ∧
      OnlyMarked (Sample.leased.store.find? Pipeline.Sample.id)
        (Sample.handling.2.2.store.find? Pipeline.Sample.id) := by
  have leased : Sample.firstLease ∈ Sample.leased.queue.leases := by
    have held : Sample.leased.queue.leases = [Sample.firstLease] := by
      with_unfolding_all rfl
    exact held ▸ List.mem_singleton.mpr rfl
  have ended : Sample.handling.2.1 = .done .retained := by
    with_unfolding_all rfl
  have sent : (Conversation.sends Sample.handling.1).length = 1 := by
    with_unfolding_all rfl
  have course := goes_falter (c := Pipeline.Sample.choice)
    (process Pipeline.Sample.deployment.policy Pipeline.Sample.deployment.emitters
      Pipeline.Sample.deployment.sendLimit Sample.firstLease)
    [(true, true), (true, true), (false, true)] Sample.leased
  have aside : (process Pipeline.Sample.deployment.policy Pipeline.Sample.deployment.emitters
      Pipeline.Sample.deployment.sendLimit Sample.firstLease).Goes
        (.aside Pipeline.Sample.id) Sample.leased
      Sample.handling.1 Sample.handling.2.1 Sample.handling.2.2 := by
    refine course.wider ?_ fun _ _ _ _ => trivial
    rintro _ _ ⟨storeUp, queueUp, time, rfl⟩
    exact .single .shifted
  exact ⟨leased, ended, sent, (needed_job_kept leased aside).retained (.inl ended)⟩

end Worker
end Courier
