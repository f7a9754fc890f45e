import Courier.Proofs.Timeliness

namespace Courier

open Prog

namespace Service

variable {b : Backend} {n current : Notification} {id : Uuid} {policy : Retry.Policy}

theorem markQueuedIn_keepsTimes (holds : b.Timely) (tries : Nat) (id : Uuid) :
    (markQueuedIn tries id).KeepsTimes (fun _ _ => True) b := by
  induction tries generalizing b with
  | zero => exact preserves_pure holds trivial
  | succ tries ih =>
      apply (get_keepsTimes holds id).bind
      intro result b holds found
      cases result with
      | error e => exact preserves_pure holds trivial
      | ok current =>
          have fits := holds.fits id current (found current rfl)
          show KeepsTimes (if current.status = .pending then _ else _) _ b
          split
          · rename_i pending
            apply (now_keepsTimes holds).bind
            intro time b holds _
            have undated : (current.queuedFrom time).nextRetryAt = none := fits.pending pending
            have queued : b.queue.Fits (current.queuedFrom time) := by
              refine ⟨fun _ => undated, ?_⟩
              intro _ t due
              rw [undated] at due
              cases due
            apply (update_keepsTimes holds queued).bind
            intro reply b holds _
            cases reply with
            | ok stored => exact preserves_note (preserves_pure holds trivial)
            | error e =>
                show KeepsTimes (if e.isConflict = true then _ else _) _ b
                split
                · exact ih holds
                · exact preserves_pure holds trivial
          · exact preserves_pure holds trivial

theorem enqueue_keepsTimes (holds : b.Timely)
    (undated : ∀ x, b.store.find? n.id = some x → x.nextRetryAt = none) :
    (enqueue n).KeepsTimes (fun _ _ => True) b := by
  unfold enqueue
  split
  · exact preserves_note (preserves_pure holds trivial)
  · exact preserves_pure holds trivial
  · exact preserves_pure holds trivial
  · apply (now_keepsTimes holds).bind
    intro time after holds passes
    have suits : after.Suits (.enqueue (.immediate n.id n.attemptCount time)) := by
      intro x found _
      rw [passes.find?] at found
      exact undated x found
    apply (push_keepsTimes holds suits).bind
    intro reply after holds _
    cases reply with
    | error e => exact preserves_note (preserves_pure holds trivial)
    | ok _ => exact markQueuedIn_keepsTimes holds writeTries n.id

theorem create_keepsTimes (holds : b.Timely) (s : Submission) :
    (create s).KeepsTimes (fun _ _ => True) b := by
  unfold create
  simp only []
  split
  · exact preserves_pure holds trivial
  · split
    · exact preserves_pure holds trivial
    · apply (now_keepsTimes holds).bind
      intro time b holds _
      have suits : b.Suits .freshId := trivial
      have fresh : freshId.KeepsTimes (fun _ _ => True) b :=
        keepsTimes_ask holds suits fun _ _ _ _ _ _ _ => trivial
      apply fresh.bind
      intro id b holds _
      let n := Notification.create id { s with recipient := Text.trimmed s.recipient } time
      have created : b.Suits (.insert n) := ⟨fun _ => rfl, fun queued => nomatch queued⟩
      have inserted : (insert n).KeepsTimes (fun reply after => reply = .ok () →
          after.store.find? n.id = some n) b := by
        apply keepsTimes_ask holds created
        intro before c step _ _ _ answered same
        obtain ⟨absent, after⟩ := Backend.answer_insert answered same
        rw [after, Store.find?_append absent, if_pos rfl]
      apply inserted.bind
      intro reply b holds found
      cases reply with
      | error e => exact preserves_pure holds trivial
      | ok _ =>
          apply preserves_note
          apply enqueue_keepsTimes holds
          intro x same
          rw [found rfl] at same
          cases same
          rfl

theorem drawn_keepsTimes {α : Type} {bound : Nat} {f : Nat → Prog α} {post : α → Backend → Prop}
    (holds : b.Timely) (h : ∀ extra after, after.Timely → b.Passes after →
      (f extra).KeepsTimes post after) :
    KeepsTimes (if bound = 0 then pure 0 >>= f else draw bound >>= f) post b := by
  split
  · exact h 0 b holds (.refl b)
  · have suits : b.Suits (.draw bound) := trivial
    have drawn : (draw bound).KeepsTimes (fun _ after => b.Passes after) b := by
      apply keepsTimes_ask holds suits
      intro before c step passes _ _ answered
      simp only [Backend.answer] at answered
      split at answered
      · cases answered
        exact passes
      · cases answered
    exact drawn.bind h

theorem applied_keepsTimes (holds : b.Timely) (found : b.store.find? current.id = some current)
    (queued : current.status = .queued) (outcome : Outcome) (time : Instant) :
    (applied policy current outcome time).KeepsTimes (fun result after => ∀ next wrap,
      result = .ok (next, wrap) → after.queue.Fits next) b := by
  unfold applied
  cases outcome with
  | success =>
      apply preserves_pure holds
      intro next wrap same
      cases same
      exact Queue.fits_of_terminal rfl
  | permanent message =>
      apply preserves_pure holds
      intro next wrap same
      cases same
      exact Queue.fits_of_terminal rfl
  | transient message =>
      apply drawn_keepsTimes holds
      intro extra after holds passes
      apply preserves_orAbort holds
      intro decision decided
      cases decision with
      | giveUp =>
          apply preserves_pure holds
          intro next wrap same
          cases same
          exact Queue.fits_of_terminal rfl
      | retryAt delay retryAt =>
          have more := attemptsAfter_of_left (Retry.Policy.left_of_decided decided)
          have suits : after.Suits (.enqueue
              ⟨current.id, attemptsAfter policy current, time, retryAt⟩) := by
            -- the record waits for the attempt before the one that is pushed
            intro x same current'
            rw [passes.find?, found] at same
            cases same
            exact absurd (current'.trans more) (by omega)
          apply (push_keepsTimes holds suits).bind
          intro reply after holds pushed
          cases reply with
          | error e =>
              apply preserves_pure holds
              intro next wrap same
              cases same
          | ok _ =>
              apply preserves_note
              apply preserves_pure holds
              intro next wrap same
              cases same
              constructor
              · intro pending
                cases queued.symm.trans pending
              · intro _ t due job live same
                cases due
                have retry : 0 < attemptsAfter policy current := by omega
                exact pushed rfl retry job live same

theorem recordIn_keepsTimes (holds : b.Timely) (attempt : Nat) (outcome : Outcome) (tries : Nat) :
    (recordIn policy id attempt outcome tries).KeepsTimes (fun _ _ => True) b := by
  induction tries generalizing b with
  | zero => exact preserves_pure holds trivial
  | succ tries ih =>
      apply (get_keepsTimes holds id).bind
      intro result b holds found
      cases result with
      | error e => exact preserves_pure holds trivial
      | ok current =>
          have found := found current rfl
          obtain rfl := Store.id_of_find? found
          show KeepsTimes (if current.status = .queued ∧ current.attemptCount = attempt
            then _ else _) _ b
          split
          · rename_i waiting
            apply (now_keepsTimes holds).bind
            intro time b holds passes
            rw [← passes.find?] at found
            show KeepsTimes (if _ then abort else _) _ b
            split
            · exact preserves_abort holds
            · apply (applied_keepsTimes holds found waiting.1 outcome time).bind
              intro result b holds fits
              match result with
              | .error e => exact preserves_pure holds trivial
              | .ok (next, wrap) =>
                  apply (update_keepsTimes holds (fits next wrap rfl)).bind
                  intro reply b holds _
                  cases reply with
                  | ok stored => exact preserves_noteAll (preserves_pure holds trivial)
                  | error e =>
                      show KeepsTimes (if e.isConflict = true then _ else _) _ b
                      split
                      · exact ih holds
                      · exact preserves_pure holds trivial
          · exact preserves_note (preserves_pure holds trivial)

theorem resetIn_keepsTimes (holds : b.Timely) (tries : Nat) (id : Uuid) :
    (resetIn tries id).KeepsTimes (fun result after => ∀ failed pending,
      result = .ok (failed, pending) → failed.status = .failed ∧ pending.nextRetryAt = none ∧
        after.store.find? pending.id = some pending) b := by
  induction tries generalizing b with
  | zero => exact preserves_pure holds fun _ _ same => nomatch same
  | succ tries ih =>
      apply (get_keepsTimes holds id).bind
      intro result b holds _
      cases result with
      | error e => exact preserves_pure holds fun _ _ same => nomatch same
      | ok current =>
          show KeepsTimes (if current.status = .failed then _ else _) _ b
          split
          · rename_i wasFailed
            apply (now_keepsTimes holds).bind
            intro time b holds _
            have fits : b.queue.Fits (current.resetAt time) :=
              ⟨fun _ => rfl, fun queued => nomatch queued⟩
            apply (update_keepsTimes holds fits).bind
            intro reply b holds written
            cases reply with
            | ok stored =>
                apply preserves_pure holds
                intro failed pending same
                cases same
                obtain ⟨found, old, rfl⟩ := written stored rfl
                exact ⟨wasFailed, rfl, found⟩
            | error e =>
                show KeepsTimes (if e.isConflict = true then _ else _) _ b
                split
                · exact ih holds
                · exact preserves_pure holds fun _ _ same => nomatch same
          · exact preserves_pure holds fun _ _ same => nomatch same

theorem resetFailed_keepsTimes (holds : b.Timely) (id : Uuid) :
    (resetFailed id).KeepsTimes (fun _ _ => True) b := by
  apply (resetIn_keepsTimes holds writeTries id).bind
  intro result b holds reset
  match result with
  | .error e => exact preserves_pure holds trivial
  | .ok (failed, pending) =>
      obtain ⟨wasFailed, undated, found⟩ := reset failed pending rfl
      have enqueued : (enqueue pending).KeepsTimes (fun _ _ => True) b := by
        apply enqueue_keepsTimes holds
        intro x same
        rw [found] at same
        cases same
        exact undated
      apply enqueued.bind
      intro result b holds _
      cases result with
      | ok queued => exact preserves_pure holds trivial
      | error e =>
          show KeepsTimes (if e.isQueueUnavailable = true then _ else _) _ b
          split
          · apply (now_keepsTimes holds).bind
            intro time b holds _
            have terminal : failed.status.isTerminal = true := by
              rw [wasFailed]
              rfl
            have fits : b.queue.Fits
                { failed with version := pending.version, updatedAt := time } :=
              Queue.fits_of_terminal terminal
            apply (update_keepsTimes holds fits).bind
            intro reply b holds _
            cases reply with
            | ok _ => exact preserves_pure holds trivial
            | error lost => exact preserves_note (preserves_pure holds trivial)
          · exact preserves_pure holds trivial

end Service

namespace Worker

variable {b : Backend} {n : Notification} {policy : Retry.Policy}

theorem ack_keepsTimes (holds : b.Timely) (lease : Lease) :
    (ack lease).KeepsTimes (fun _ _ => True) b := by
  have suits : b.Suits (.ack lease.token) := trivial
  have asked : (Prog.ack lease.token).KeepsTimes (fun _ _ => True) b :=
    keepsTimes_ask holds suits fun _ _ _ _ _ _ _ => trivial
  apply asked.bind
  intro reply b holds _
  match reply with
  | .ok true => exact preserves_pure holds trivial
  | .ok false => exact preserves_note (preserves_pure holds trivial)
  | .error e => exact preserves_note (preserves_pure holds trivial)

theorem claim_keepsTimes (holds : b.Timely) (n : Notification) (attempt : Nat) :
    (claim n attempt).KeepsTimes (fun _ _ => True) b := by
  unfold claim
  split
  · exact preserves_note (preserves_pure holds trivial)
  · split
    · apply (Service.markQueuedIn_keepsTimes holds Service.writeTries n.id).bind
      intro result b holds _
      cases result with
      | error e => exact preserves_pure holds trivial
      | ok queued =>
          show KeepsTimes (if queued.status = .queued ∧ queued.attemptCount = attempt
            then _ else _) _ b
          split
          · exact preserves_pure holds trivial
          · exact preserves_pure holds trivial
    · exact preserves_pure holds trivial

theorem attempt_keepsTimes (holds : b.Timely) (emitters : Emitters) (limit : Duration)
    (n : Notification) : (attempt emitters limit n).KeepsTimes (fun _ _ => True) b := by
  unfold attempt
  split
  · exact preserves_pure holds trivial
  · split
    · exact preserves_pure holds trivial
    · rename_i message _
      have suits : b.Suits (.send n.channel n.recipient message limit) := trivial
      have sent : (send n.channel n.recipient message limit).KeepsTimes (fun _ _ => True) b :=
        keepsTimes_ask holds suits fun _ _ _ _ _ _ _ => trivial
      apply sent.bind
      intro reply b holds _
      match reply with
      | some (.ok ()) => exact preserves_pure holds trivial
      | some (.error e) => exact preserves_note (preserves_pure holds trivial)
      | none => exact preserves_pure holds trivial

theorem process_keepsTimes (holds : b.Timely) (emitters : Emitters) (limit : Duration)
    (lease : Lease) : (process policy emitters limit lease).KeepsTimes (fun _ _ => True) b := by
  have released {b : Backend} (holds : b.Timely) (outcome : JobOutcome) :
      (ack lease >>= fun _ => pure outcome).KeepsTimes (fun _ _ => True) b := by
    apply (ack_keepsTimes holds lease).bind
    intro _ b holds _
    exact preserves_pure holds trivial
  apply (get_keepsTimes holds lease.job.notificationId).bind
  intro result b holds _
  cases result with
  | error e =>
      cases e with
      | notFound text => exact preserves_note (released holds .skipped)
      | _ => exact preserves_note (preserves_pure holds trivial)
  | ok n =>
      apply (claim_keepsTimes holds n lease.job.attempt).bind
      intro result b holds _
      match result with
      | .error e => exact preserves_note (preserves_pure holds trivial)
      | .ok none => exact released holds .skipped
      | .ok (some claimed) =>
          apply (attempt_keepsTimes holds emitters limit claimed).bind
          intro outcome b holds _
          apply preserves_note
          apply (Service.recordIn_keepsTimes holds lease.job.attempt outcome
            Service.writeTries).bind
          intro result b holds _
          cases result with
          | error e => exact preserves_note (preserves_pure holds trivial)
          | ok r => exact released holds (.recorded r)

end Worker

namespace Pipeline

variable {d : Deployment} {clock : Instant} {s : Pipeline} {n : Notification} {t : Instant}

theorem timely_of_orderly
    (reached : Reachable d (fun s m => orderly Backend.takesRetries s m) clock s) :
    s.backend.Timely := by
  apply holds_of_orderly ⟨List.nodup_nil, fun _ _ found => nomatch found⟩ Backend.Timely.passes
    _ _ reached
  · intro b leaseFor token holds
    exact holds.less (fun _ => rfl) (Queue.liveJobs_tryLease _ _ _ _)
  · intro op b routine holds
    cases op with
    | create s => exact Service.create_keepsTimes holds s
    | record id attempt outcome =>
        exact Service.recordIn_keepsTimes holds attempt outcome Service.writeTries
    | resetFailed id => exact Service.resetFailed_keepsTimes holds id
    | process lease => exact Worker.process_keepsTimes holds d.emitters d.sendLimit lease
    | _ => cases routine

/-- Where no retry is forestalled, no job for the next attempt is visible before the record says,
and nobody can lease one before. -/
theorem no_retry_before_due
    (reached : Reachable d (fun s m => orderly Backend.takesRetries s m) clock s)
    (stored : s.backend.store.find? n.id = some n) (queued : n.status = .queued)
    (due : n.nextRetryAt = some t) :
    (∀ job ∈ s.backend.queue.liveJobs, job.key = (n.id, n.attemptCount) → t ≤ job.visibleAt) ∧
      ∀ leaseFor token lease queue,
        s.backend.queue.tryLease s.backend.clock leaseFor token = (.leased lease, queue) →
          lease.job.key = (n.id, n.attemptCount) → t ≤ s.backend.clock := by
  have timely := timely_of_orderly reached
  have fits := timely.fits n.id n stored
  have later := fits.queued queued t due
  refine ⟨later, ?_⟩
  intro leaseFor token lease queue tried same
  obtain ⟨live, visible⟩ := Queue.visible_of_tryLease tried
  exact Instant.le_trans (later lease.job live same) visible

namespace Sample

def postponed : List Move :=
  creation ++
    [.lease (.ofSeconds 60) ⟨10#128⟩, .begin (.process (leaseUntil 10#128 60)), advance 1,
      .advance 1 failure, advance 1, advance 1, advance 1, advance 1, advance 1,
      .setClock (.ofSecond 60)]

/-- The first attempt fails, and the store is lost when the retry has been pushed already. When the
lease has run out the attempt is made again and fails again, a minute later. -/
def repeated : List Move :=
  creation ++
    [.lease (.ofSeconds 60) ⟨10#128⟩, .begin (.process (leaseUntil 10#128 60)), advance 1,
      .advance 1 failure, advance 1, advance 1, advance 1, .setAvailable false true, advance 1,
      .setAvailable true true, .setClock (.ofSecond 60),
      .lease (.ofSeconds 60) ⟨11#128⟩, .begin (.process (leaseUntil 11#128 120)), advance 2,
      .advance 2 failure, advance 2, advance 2, advance 2, advance 2, advance 2]

end Sample

/-- A minute after the first attempt has failed, the job for the second one is due and is
offered. -/
theorem no_retry_before_due_after_failure : ∃ s n,
    (initial Sample.clock).run? Sample.patient (orderly Backend.takesRetries) Sample.postponed =
        some s ∧
      s.backend.store.find? n.id = some n ∧ n.status = .queued ∧
      n.nextRetryAt = some (.ofSecond 60) ∧ (∃ job, s.offered = some job ∧ job.key = (n.id, 1)) ∧
      (∀ job ∈ s.backend.queue.liveJobs, job.key = (n.id, n.attemptCount) →
        .ofSecond 60 ≤ job.visibleAt) ∧
      ∀ leaseFor token lease queue,
        s.backend.queue.tryLease s.backend.clock leaseFor token = (.leased lease, queue) →
          lease.job.key = (n.id, n.attemptCount) → .ofSecond 60 ≤ s.backend.clock := by
  have run : ∃ s n,
      (initial Sample.clock).run? Sample.patient (orderly Backend.takesRetries) Sample.postponed =
          some s ∧
        s.backend.store.find? Sample.id = some n ∧ n.status = .queued ∧
        n.nextRetryAt = some (.ofSecond 60) ∧
        ∃ job, s.offered = some job ∧ job.key = (Sample.id, 1) :=
    ⟨_, _, rfl, rfl, rfl, rfl, _, rfl, rfl⟩
  obtain ⟨s, n, run, stored, queued, due, offered⟩ := run
  have own := Store.id_of_find? stored
  rw [← own] at stored offered
  exact ⟨s, n, run, stored, queued, due, offered,
    no_retry_before_due (Reachable.initial.run run) stored queued due⟩

/-- A push that is forestalled lets a worker have the attempt before the record says, when nobody
works on the notification any more. -/
theorem retry_before_due_when_forestalled : ∃ s n job,
    (initial Sample.clock).run? Sample.patient (orderly fun _ _ => true) Sample.repeated = some s ∧
      Reachable Sample.patient (fun s m => orderly (fun _ _ => true) s m) Sample.clock s ∧
      s.isIdle = true ∧ s.backend.store.find? Sample.id = some n ∧ n.status = .queued ∧
      n.attemptCount = 1 ∧ n.nextRetryAt = some (.ofSecond 120) ∧
      s.offered = some job ∧ job.key = (Sample.id, 1) ∧ job.visibleAt = .ofSecond 60 ∧
      s.backend.clock = .ofSecond 60 := by
  have run : ∃ s n job,
      (initial Sample.clock).run? Sample.patient (orderly fun _ _ => true) Sample.repeated =
        some s ∧
        s.isIdle = true ∧ s.backend.store.find? Sample.id = some n ∧ n.status = .queued ∧
        n.attemptCount = 1 ∧ n.nextRetryAt = some (.ofSecond 120) ∧
        s.offered = some job ∧ job.key = (Sample.id, 1) ∧ job.visibleAt = .ofSecond 60 ∧
        s.backend.clock = .ofSecond 60 :=
    ⟨_, _, _, rfl, rfl, rfl, rfl, rfl, rfl, rfl, rfl, rfl, rfl⟩
  obtain ⟨s, n, job, run, early⟩ := run
  exact ⟨s, n, job, run, Reachable.initial.run run, early⟩

end Pipeline
end Courier
