import Courier.Proofs.JobTracking
import Courier.Proofs.RecordInvariant
import Mathlib.Data.List.Induction

/-!
Queued notifications and the jobs that bring them out. There has been a job for the next attempt of
every queued notification. It is gone only where a worker took it for needless, on what it had seen
of the notification before that was last written, or where it was lost with a lease that cannot be
dated.
-/
namespace Courier

namespace Past

variable {c : Contract} {policy : Retry.Policy} {past before after : Past} {e x : Happening}
  {key : Job.Key} {id : Uuid} {n : Notification} {call i : Nat}

/-- The last job for the attempt is gone from the queue: a worker released it that had seen the
notification not waiting for the attempt, or it was lost with a lease beyond all dates. -/
inductive Stranded (past : Past) (id : Uuid) (attempt : Nat) : Prop
  | discarded {before after : Past} {call : Nat} {token : Uuid} {lease : Lease}
      (split : past = before ++ .answered call (.ack token) (.ok true) :: after)
      (worker : before.operations[call]? = some (.process lease))
      (job : lease.job.key = (id, attempt)) (seen : before.Discharged call id attempt)
      (last : ∀ e ∈ after, ∀ job, e.pushed? = some job → job.key ≠ (id, attempt))
  | lost {before after : Past} {job : Job} (split : past = before ++ .dropped job :: after)
      (job : job.key = (id, attempt))
      (last : ∀ e ∈ after, ∀ job, e.pushed? = some job → job.key ≠ (id, attempt))

theorem Asked.released (asked : past.Asked key) (gone : ¬past.Outstanding key) :
    ∃ before e after, past = before ++ e :: after ∧ Releases before key e ∧
      ∀ e ∈ after, ∀ job, e.pushed? = some job → job.key ≠ key := by
  induction past using List.reverseRecOn with
  | nil =>
      obtain ⟨e, mem, _⟩ := asked
      cases mem
  | append_singleton past e ih =>
      rw [outstanding_snoc, not_or, not_and] at gone
      obtain ⟨noPush, gone⟩ := gone
      have noPush : ∀ job, e.pushed? = some job → job.key ≠ key :=
        fun job pushed same => noPush ⟨job, pushed, same⟩
      by_cases live : Outstanding key past
      · exact ⟨past, e, [], rfl, Classical.not_not.mp (gone live), fun _ mem => nomatch mem⟩
      · have asked : Asked past key := by
          obtain ⟨e', mem, job, pushed, same⟩ := asked
          rcases List.mem_append.mp mem with old | new
          · exact ⟨e', old, job, pushed, same⟩
          · obtain rfl := List.mem_singleton.mp new
            exact absurd same (noPush job pushed)
        obtain ⟨before, released, after, rfl, releases, last⟩ := ih asked live
        refine ⟨before, released, after ++ [e], by simp, releases, ?_⟩
        intro e' mem
        rcases List.mem_append.mp mem with old | new
        · exact last e' old
        · obtain rfl := List.mem_singleton.mp new
          exact noPush

theorem not_outstanding_of_released (split : past = before ++ e :: after)
    (releases : Releases before key e) (last : ∀ e ∈ after, ∀ job, e.pushed? = some job →
      job.key ≠ key) : ¬past.Outstanding key := by
  subst split
  induction after using List.reverseRecOn with
  | nil =>
      rw [outstanding_snoc]
      rintro (⟨job, pushed, _⟩ | ⟨_, held⟩)
      · cases releases <;> cases pushed
      · exact held releases
  | append_singleton rest x ih =>
      rw [← List.cons_append, ← List.append_assoc, outstanding_snoc]
      rintro (⟨job, pushed, same⟩ | ⟨outstanding, _⟩)
      · exact last x (List.mem_append_right _ (List.mem_singleton.mpr rfl)) job pushed same
      · exact ih (fun e mem => last e (List.mem_append_left _ mem)) outstanding

theorem Accounted.attemptCount_of_pending (h : past.Accounted policy) (known : n ∈ past.versions id)
    (pending : n.status = .pending) : n.attemptCount = 0 := by
  obtain ⟨i, found⟩ := List.getElem?_of_mem known
  rcases h.made found with submitted | ⟨j, x, call, _, _, rewrote⟩
  · cases submitted
    rfl
  · cases rewrote with
    | intro asker seen rewrite =>
        cases rewrite with
        | queue able _ backed => cases pending
        | report reports queued reported job =>
            cases reported with
            | retried left decided => exact nomatch queued.symm.trans pending
            | sent | refused | exhausted => cases pending
        | reset able failed => rfl
        | restore able old wasFailed replaced same reset =>
            exact nomatch wasFailed.symm.trans pending

/-- There has been a job for the next attempt of every queued record. -/
theorem Accounted.asked_of_queued (h : past.Accounted policy)
    (pushes : ∀ op ∈ past.operations, op.pushesFirst = true)
    (leases : ∀ lease ∈ past.leases, past.Asked lease.job.key) (known : n ∈ past.versions id)
    (queued : n.status = .queued) : past.Asked (id, n.attemptCount) := by
  obtain ⟨i, found⟩ := List.getElem?_of_mem known
  rcases h.made found with submitted | ⟨j, x, call, _, earlier, rewrote⟩
  · cases submitted
    cases queued
  · have before := List.mem_of_getElem? earlier
    obtain rfl := id_of_mem_versions before
    cases rewrote with
    | intro asker seen rewrite =>
        cases rewrite with
        | queue able pending backed =>
            have first := h.attemptCount_of_pending before pending
            obtain ⟨m, mem, pending', sought⟩ := backed (pushes _ (List.mem_of_getElem? asker))
            rw [h.attemptCount_of_pending mem pending'] at sought
            show past.Asked (x.id, x.attemptCount)
            rw [first]
            rcases sought with asked | ⟨lease, granted, same⟩
            · exact asked
            · rw [← same]
              exact leases lease granted
        | report reports _ reported job => exact job queued
        | reset able failed => cases queued
        | restore able old wasFailed replaced same reset =>
            exact nomatch wasFailed.symm.trans queued

end Past

namespace Pipeline

variable {d : Deployment} {allowed : Pipeline → Move → Prop} {clock : Instant} {s : Pipeline}
  {n : Notification}

/-- Where notifications are marked as queued only by calls that push first, a queued notification
has a live job for its next attempt exactly if it is not stranded. -/
theorem live_iff_not_stranded (pushes : ∀ s op, allowed s (.begin op) → op.pushesFirst = true)
    (reached : Reachable d allowed clock s) (stored : s.backend.store.find? n.id = some n)
    (queued : n.status = .queued) :
    (∃ job ∈ s.backend.queue.liveJobs, job.key = (n.id, n.attemptCount)) ↔
      ¬s.past.Stranded n.id n.attemptCount := by
  have keeping := keeping_of_reachable (contract_kept d) reached
  have tracked := tracked_of_reachable reached
  rw [keeping.describes.found] at stored
  rw [← Queue.mem_keys, tracked.live]
  constructor
  · intro outstanding stranded
    cases stranded with
    | discarded split worker job seen last =>
        exact Past.not_outstanding_of_released split (.acked worker job) last outstanding
    | lost split job last =>
        exact Past.not_outstanding_of_released split (.dropped job) last outstanding
  · intro safe
    refine Classical.by_contradiction fun gone => safe ?_
    have asked := (accounted_of_reachable reached).asked_of_queued
      (operations_of_reachable pushes reached) tracked.asked (Past.mem_versions_of_latest stored)
      queued
    obtain ⟨before, e, after, split, releases, last⟩ := asked.released gone
    cases releases with
    | @acked call token lease worker job =>
        obtain ⟨op, asker, ⟨lease, rfl, _, seen⟩, _⟩ := keeping.lawful.of_split split
        cases asker.symm.trans worker
        obtain ⟨own, number⟩ := Prod.mk.inj job
        rw [own, number] at seen
        exact .discarded split worker job seen last
    | dropped job => exact .lost split job last

theorem pushesFirst_of_delivery {s : Pipeline} {op : Operation}
    (may : delivery s (.begin op) = true) : op.pushesFirst = true := by
  cases op <;> first | rfl | cases may

/-- A notification that was just created has its job, which is not stranded. -/
theorem live_after_creation : ∃ s n,
    (initial Sample.clock).run? Sample.deployment delivery Sample.creation = some s ∧
      Reachable Sample.deployment (fun s m => delivery s m) Sample.clock s ∧
      s.backend.store.find? n.id = some n ∧ n.status = .queued ∧
      ((∃ job ∈ s.backend.queue.liveJobs, job.key = (n.id, n.attemptCount)) ↔
        ¬s.past.Stranded n.id n.attemptCount) := by
  have run : ∃ s n,
      (initial Sample.clock).run? Sample.deployment delivery Sample.creation = some s ∧
        s.backend.store.find? Sample.id = some n ∧ n.status = .queued := ⟨_, _, rfl, rfl, rfl⟩
  obtain ⟨s, n, run, stored, queued⟩ := run
  rw [← Store.id_of_find? stored] at stored
  have reached := Reachable.initial.run run
  exact ⟨s, n, run, reached, stored, queued,
    live_iff_not_stranded (fun _ _ may => pushesFirst_of_delivery may) reached stored queued⟩

namespace Sample

/-- The job for the first attempt, as it is leased under a token until some second. -/
def leaseUntil (token : BitVec 128) (second : Int) : Lease :=
  ⟨.immediate id 0 Sample.clock, ⟨token⟩, .ofSecond second⟩

/-- The job is leased again after its first lease has run out, and the attempt fails for good. A
reset can neither have a job pushed nor be taken back, and leaves the notification pending. The
worker with the first lease then marks it as queued, and loses the store before it can record
anything. -/
def forgotten : List Move :=
  creation ++
    [.lease (.ofSeconds 1) ⟨10#128⟩, .setClock (.ofSecond 2), .lease (.ofSeconds 60) ⟨11#128⟩,
      .begin (.process (leaseUntil 11#128 62)), advance 1,
      .advance 1 { choice with delivery := some (.error (.invalidRecipient "gone")) },
      advance 1, advance 1, advance 1, advance 1,
      .begin (.resetFailed id), advance 2, advance 2, advance 2,
      advance 2, .setAvailable true false, advance 2,
      advance 2, .setAvailable false false, advance 2, .setAvailable true true,
      .begin (.process (leaseUntil 10#128 1)), advance 3, advance 3, advance 3, advance 3,
      advance 3, .setAvailable false true, advance 3, .setAvailable true true]

/-- The attempt fails and a retry is pushed at once. A second worker leases the retry before the
first one has written its record, takes it for needless and releases it. -/
def overtaken : List Move :=
  creation ++
    [.lease (.ofSeconds 60) ⟨10#128⟩, .begin (.process (leaseUntil 10#128 60)), advance 1,
      .advance 1 { choice with delivery := some (.error (.network "down")) },
      advance 1, advance 1, advance 1,
      .lease (.ofSeconds 60) ⟨11#128⟩,
      .begin (.process ⟨.immediate id 1 Sample.clock, ⟨11#128⟩, .ofSecond 60⟩),
      advance 2, advance 2, advance 1, advance 1]

end Sample

/-- A queued notification may be left without a job when nobody works on it any more: a job was
released before the notification came to wait for its attempt again. -/
theorem queued_without_job_when_forgotten : ∃ s n,
    (initial Sample.clock).run? Sample.deployment delivery Sample.forgotten = some s ∧
      Reachable Sample.deployment (fun s m => delivery s m) Sample.clock s ∧ s.isIdle = true ∧
      s.backend.store.find? Sample.id = some n ∧ n.status = .queued ∧ n.attemptCount = 0 ∧
      s.backend.queue.liveJobs = [] := by
  have run : ∃ s n,
      (initial Sample.clock).run? Sample.deployment delivery Sample.forgotten = some s ∧
        s.isIdle = true ∧ s.backend.store.find? Sample.id = some n ∧ n.status = .queued ∧
        n.attemptCount = 0 ∧ s.backend.queue.liveJobs = [] := ⟨_, _, rfl, rfl, rfl, rfl, rfl, rfl⟩
  obtain ⟨s, n, run, lost⟩ := run
  exact ⟨s, n, run, Reachable.initial.run run, lost⟩

/-- The same without any outage, when two workers meet. -/
theorem queued_without_job_when_overtaken : ∃ s n,
    (initial Sample.clock).run? Sample.deployment delivery Sample.overtaken = some s ∧
      Reachable Sample.deployment (fun s m => delivery s m) Sample.clock s ∧ s.isIdle = true ∧
      s.backend.store.find? Sample.id = some n ∧ n.status = .queued ∧ n.attemptCount = 1 ∧
      s.backend.queue.liveJobs = [] := by
  have run : ∃ s n,
      (initial Sample.clock).run? Sample.deployment delivery Sample.overtaken = some s ∧
        s.isIdle = true ∧ s.backend.store.find? Sample.id = some n ∧ n.status = .queued ∧
        n.attemptCount = 1 ∧ s.backend.queue.liveJobs = [] := ⟨_, _, rfl, rfl, rfl, rfl, rfl, rfl⟩
  obtain ⟨s, n, run, lost⟩ := run
  exact ⟨s, n, run, Reachable.initial.run run, lost⟩

end Pipeline
end Courier
