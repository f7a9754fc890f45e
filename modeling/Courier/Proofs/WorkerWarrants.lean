import Courier.Proofs.ServiceWarrants

namespace Courier

open Prog

variable {d : Deployment} {policy : Retry.Policy} {op : Operation} {me : Nat} {past now : Past}

namespace Recovery

theorem resetAll_sound (able : op.onlyReports = false) (ids : List Uuid) (queued errors : Nat) :
    Sound policy op me (resetAll ids queued errors) past fun _ _ => True := by
  induction ids generalizing past queued errors with
  | nil => exact keeps_pure fun _ _ => trivial
  | cons id rest ih =>
      refine Keeps.bind (Service.resetFailed_sound able id past) fun result now _ _ => ?_
      cases result with
      | ok n => exact ih (queued + 1) errors
      | error e => exact keeps_note (ih queued (errors + 1))

theorem retryFailed_sound (able : op.onlyReports = false) (limit : Option Nat) (past : Past) :
    Sound policy op me (retryFailed limit) past fun _ _ => True := by
  have listed : Sound policy op me (Service.list (.withStatus .failed)) past fun _ _ => True :=
    keeps_ask (fun _ _ => trivial) fun _ _ _ _ _ _ => trivial
  refine Keeps.bind listed fun result now _ _ => ?_
  cases result with
  | error e => exact keeps_pure fun _ _ => trivial
  | ok failed =>
      refine Keeps.bind (resetAll_sound able _ 0 0) fun counts now' _ _ => ?_
      exact keeps_note (keeps_pure fun _ _ => trivial)

end Recovery

namespace Worker

variable {lease : Lease} {n : Notification}

theorem ack_sound (discharged : past.Discharged me lease.job.notificationId lease.job.attempt) :
    Sound policy (.process lease) me (ack lease) past fun _ _ => True := by
  have asked : Sound policy (.process lease) me (Prog.ack lease.token) past fun _ _ => True := by
    refine keeps_ask (fun now grown => ?_) fun _ _ _ _ _ _ => trivial
    exact ⟨lease, rfl, rfl, discharged.mono grown⟩
  refine Keeps.bind asked fun reply now _ _ => ?_
  match reply with
  | .ok true => exact keeps_pure fun _ _ => trivial
  | .ok false => exact keeps_note fun _ _ => trivial
  | .error e => exact keeps_note fun _ _ => trivial

theorem claim_sound (granted : lease ∈ past.leases)
    (saw : past.Saw me lease.job.notificationId (some n)) :
    Sound policy (.process lease) me (claim n lease.job.attempt) past fun result now =>
      result = .ok none → now.Discharged me lease.job.notificationId lease.job.attempt := by
  have own := Past.id_of_mem_versions saw.known
  unfold claim
  split
  · rename_i settled
    refine keeps_note (keeps_pure fun future later _ => ?_)
    refine (saw.mono later).discharged fun ⟨queued, current⟩ => ?_
    simp [queued, current, Status.isTerminal] at settled
  · rename_i wanted
    have current : n.attemptCount = lease.job.attempt := by
      simp only [Bool.or_eq_true, bne_iff_ne, not_or] at wanted
      exact Decidable.not_not.mp wanted.2
    split
    · rename_i pending
      have backed : past.Backed n.id := by
        have known := saw.known
        rw [← own] at known
        refine ⟨n, known, pending, .inr ⟨lease, granted, ?_⟩⟩
        rw [Job.key, own, current]
      refine Keeps.bind (Service.markQueuedIn_sound rfl (fun _ => backed) Service.writeTries)
        fun result now later marked => ?_
      cases result with
      | error e => exact keeps_pure fun _ _ same => (nomatch same)
      | ok queued =>
          have marked := marked queued rfl
          rw [own] at marked
          show Sound policy _ me
            (if queued.status = .queued ∧ queued.attemptCount = lease.job.attempt then _ else _)
            now _
          split
          · exact keeps_pure fun _ _ same => (nomatch same)
          · rename_i settled
            exact keeps_pure fun future last _ => (marked.mono last).discharged settled
    · exact keeps_pure fun _ _ same => (nomatch same)

theorem attempt_sound (emitters : Emitters) (limit : Duration) (n : Notification) (past : Past) :
    Sound policy op me (attempt emitters limit n) past fun _ _ => True := by
  unfold attempt
  split
  · exact keeps_pure fun _ _ => trivial
  · split
    · exact keeps_pure fun _ _ => trivial
    · rename_i message _
      have sent : Sound policy op me (send n.channel n.recipient message limit) past
          fun _ _ => True :=
        keeps_ask (fun _ _ => trivial) fun _ _ _ _ _ _ => trivial
      refine Keeps.bind sent fun reply now _ _ => ?_
      match reply with
      | some (.ok ()) => exact keeps_pure fun _ _ => trivial
      | some (.error e) => exact keeps_note (keeps_pure fun _ _ => trivial)
      | none => exact keeps_pure fun _ _ => trivial

/-- A worker goes on by steps that each leave the job on the queue or have seen it discharged. -/
theorem process_sound (emitters : Emitters) (limit : Duration) (granted : lease ∈ past.leases) :
    Sound policy (.process lease) me (process policy emitters limit lease) past
      fun _ _ => True := by
  refine Keeps.bind (Service.get_sound policy _ me lease.job.notificationId past)
    fun result now grown ⟨saw, gone⟩ => ?_
  cases result with
  | error e =>
      cases e with
      | notFound text =>
          refine keeps_note (Keeps.bind (ack_sound (gone text _ rfl)) fun _ _ _ _ => ?_)
          exact keeps_pure fun _ _ => trivial
      | _ => exact keeps_note (keeps_pure fun _ _ => trivial)
  | ok n =>
      have granted : lease ∈ now.leases := (grown.filterMap _).subset granted
      refine Keeps.bind (claim_sound granted (saw n rfl)) fun result now₁ later₁ skipped => ?_
      match result with
      | .error e => exact keeps_note (keeps_pure fun _ _ => trivial)
      | .ok none =>
          refine Keeps.bind (ack_sound (skipped rfl)) fun _ _ _ _ => ?_
          exact keeps_pure fun _ _ => trivial
      | .ok (some claimed) =>
          refine Keeps.bind (attempt_sound emitters limit claimed now₁)
            fun outcome now₂ later₂ _ => ?_
          have reports : (Operation.process lease).Reports lease.job.notificationId
              lease.job.attempt outcome := rfl
          refine keeps_note (Keeps.bind (Service.recordIn_sound reports Service.writeTries)
            fun result now₃ later₃ recorded => ?_)
          cases result with
          | error e => exact keeps_note (keeps_pure fun _ _ => trivial)
          | ok r =>
              refine Keeps.bind (ack_sound (recorded r rfl).1) fun _ _ _ _ => ?_
              exact keeps_pure fun _ _ => trivial

end Worker

theorem contract_kept (d : Deployment) : (contract d.policy).KeptBy d := by
  intro op me past permitted
  cases op with
  | create s => exact Service.create_sound rfl s
  | get id => exact (Service.get_sound d.policy _ me id past).mono fun _ _ _ _ => trivial
  | list filter => exact keeps_ask (fun _ _ => trivial) fun _ _ _ _ _ _ => trivial
  | enqueue n => exact Service.enqueue_sound rfl fun pushes => nomatch pushes
  | markQueued id =>
      have backed : (Operation.markQueued id).pushesFirst = true → past.Backed id :=
        fun pushes => nomatch pushes
      exact (Service.markQueuedIn_sound rfl backed Service.writeTries).mono fun _ _ _ _ => trivial
  | record id attempt outcome =>
      have reports : (Operation.record id attempt outcome).Reports id attempt outcome :=
        ⟨rfl, rfl, rfl⟩
      refine (Service.recordIn_sound reports Service.writeTries).mono ?_
      exact fun result now _ recorded r same => (recorded r same).2
  | resetFailed id => exact Service.resetFailed_sound rfl id past
  | retryFailed limit => exact Recovery.retryFailed_sound rfl limit past
  | process lease =>
      refine Worker.process_sound d.emitters d.sendLimit ?_
      simpa [Past.permits] using permitted

end Courier
