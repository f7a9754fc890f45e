import Courier.Proofs.History

namespace Courier

namespace Notification

/-- The fields are set as the status wants them. -/
def FitsStatus (max : Nat) (n : Notification) : Prop :=
  match n.status with
  | .pending => n.attemptCount = 0 ∧ n.errorMessage = none ∧ n.nextRetryAt = none ∧
      n.queuedAt = none ∧ n.sentAt = none ∧ n.failedAt = none
  | .queued => n.attemptCount < max ∧ n.queuedAt.isSome ∧ n.sentAt = none ∧ n.failedAt = none ∧
      (n.errorMessage.isSome ↔ 0 < n.attemptCount) ∧ (n.nextRetryAt.isSome ↔ 0 < n.attemptCount)
  | .sent => 1 ≤ n.attemptCount ∧ n.sentAt.isSome ∧ n.errorMessage = none ∧
      n.nextRetryAt = none ∧ n.failedAt = none
  | .failed => n.attemptCount = max ∧ n.errorMessage.isSome ∧ n.failedAt.isSome ∧
      n.nextRetryAt = none ∧ n.sentAt = none

/-- The invariant of stored records under a budget of `max` attempts. -/
structure WellFormed (max : Nat) (n : Notification) : Prop where
  within : n.attemptCount ≤ max
  fits : n.FitsStatus max

end Notification

variable {policy : Retry.Policy} {op : Operation} {past : Past} {cur next n : Notification}
  {time : Instant} {id : Uuid} {max : Nat}

open Notification (WellFormed FitsStatus)

theorem Store.wellFormed_merged {old : Notification} (h : next.WellFormed max) :
    (Store.merged old next).WellFormed max := ⟨h.within, h.fits⟩

theorem Notification.wellFormed_create (id : Uuid) (s : Submission) (time : Instant) :
    (Notification.create id s time).WellFormed max :=
  ⟨Nat.zero_le _, rfl, rfl, rfl, rfl, rfl, rfl⟩

theorem Notification.WellFormed.queuedFrom (h : cur.WellFormed max) (positive : 1 ≤ max)
    (pending : cur.status = .pending) : (cur.queuedFrom time).WellFormed max := by
  have fits := h.fits
  simp only [FitsStatus, pending] at fits
  obtain ⟨fresh, noError, noRetry, _, notSent, notFailed⟩ := fits
  refine ⟨h.within, ?_⟩
  simp only [FitsStatus, Notification.queuedFrom, fresh, noError, noRetry, notSent, notFailed,
    Option.isSome_some, Option.isSome_none, Nat.lt_irrefl, Bool.false_eq_true, and_true]
  exact positive

theorem Notification.WellFormed.resetAt (cur : Notification) (time : Instant) :
    (cur.resetAt time).WellFormed max :=
  ⟨Nat.zero_le _, rfl, rfl, rfl, rfl, rfl, rfl⟩

theorem Service.Reported.wellFormed {outcome : Outcome} {wrap : Notification → Service.Recorded}
    (h : Service.Reported policy cur time outcome next wrap)
    (before : cur.WellFormed policy.maxAttempts) (queued : cur.status = .queued) :
    next.WellFormed policy.maxAttempts := by
  have fits := before.fits
  simp only [FitsStatus, queued] at fits
  obtain ⟨left, queuedAt, notSent, notFailed, error, retry⟩ := fits
  have within : attemptsAfter policy cur ≤ policy.maxAttempts := Nat.min_le_right _ _
  have counted : 1 ≤ attemptsAfter policy cur := by
    simp only [attemptsAfter]
    omega
  cases h with
  | sent => exact ⟨within, counted, rfl, rfl, rfl, rfl⟩
  | refused => exact ⟨Nat.le_refl _, rfl, rfl, rfl, rfl, rfl⟩
  | exhausted spent => exact ⟨within, Nat.le_antisymm within spent, rfl, rfl, rfl, rfl⟩
  | retried more decided =>
      refine ⟨within, ?_⟩
      simp only [FitsStatus, tried, queued, Option.isSome_some, true_iff]
      exact ⟨more, queuedAt, notSent, notFailed, counted, counted⟩

/-- Every way to rewrite a record keeps the invariant, if all versions up to the one that is
rewritten have kept it. -/
theorem Past.Rewrite.wellFormed (h : past.Rewrite policy op cur time next)
    (positive : 1 ≤ policy.maxAttempts) (known : cur ∈ past.versions cur.id)
    (before : ∀ n ∈ past.versions cur.id, n.version ≤ cur.version →
      n.WellFormed policy.maxAttempts) : next.WellFormed policy.maxAttempts := by
  have own := before cur known (Int.le_refl _)
  cases h with
  | queue able pending backed => exact own.queuedFrom positive pending
  | report reports queued reported job => exact reported.wellFormed own queued
  | reset able failed => exact .resetAt cur time
  | @restore failed old earlier able mem wasFailed replaced same reset =>
      have later : cur.version = failed.version + 1 := by rw [reset]; rfl
      have whole := before failed mem (by omega)
      exact ⟨whole.within, whole.fits⟩

theorem Past.Accounted.wellFormed (h : past.Accounted policy) (positive : 1 ≤ policy.maxAttempts)
    (known : n ∈ past.versions id) : n.WellFormed policy.maxAttempts := by
  obtain ⟨i, found⟩ := List.getElem?_of_mem known
  induction i using Nat.strongRecOn generalizing n with
  | ind i ih =>
      rcases h.made found with submitted | ⟨j, x, call, rfl, first, rewrote⟩
      · cases submitted
        exact Notification.wellFormed_create _ _ _
      · cases rewrote with
        | intro asker seen rewrite =>
            refine Store.wellFormed_merged (rewrite.wellFormed positive seen.known ?_)
            intro m mem upTo
            rw [id_of_mem_versions (List.mem_of_getElem? first)] at mem
            obtain ⟨k, place⟩ := List.getElem?_of_mem mem
            have last := h.version_eq first
            have number := h.version_eq place
            exact ih k (by omega) mem place

namespace Pipeline

variable {d : Deployment} {allowed : Pipeline → Move → Prop} {clock : Instant} {s : Pipeline}

theorem accounted_of_reachable (reached : Reachable d allowed clock s) :
    s.past.Accounted d.policy :=
  Past.accounted_of_lawful (keeping_of_reachable (contract_kept d) reached).lawful

/-- In every state that any calls come to, however they meet and whatever fails, each stored record
keeps the invariant. -/
theorem records_wellFormed (positive : 1 ≤ d.policy.maxAttempts)
    (reached : Reachable d allowed clock s) :
    ∀ n ∈ s.backend.store.records, n.WellFormed d.policy.maxAttempts := by
  intro n stored
  have keeping := keeping_of_reachable (contract_kept d) reached
  have known := keeping.describes.known n stored
  exact (accounted_of_reachable reached).wellFormed positive known

/-- The record that three reports have raced for keeps the invariant. -/
theorem records_wellFormed_after_race : ∃ s,
    (initial Sample.clock).run? Sample.deployment anything Sample.race = some s ∧
      s.backend.store.records.length = 1 ∧ 1 ≤ Sample.deployment.policy.maxAttempts ∧
      Reachable Sample.deployment (fun s m => anything s m) Sample.clock s ∧
      ∀ n ∈ s.backend.store.records, n.WellFormed Sample.deployment.policy.maxAttempts := by
  have run : ∃ s, (initial Sample.clock).run? Sample.deployment anything Sample.race = some s ∧
      s.backend.store.records.length = 1 := ⟨_, rfl, rfl⟩
  obtain ⟨s, run, one⟩ := run
  have reached := Reachable.initial.run run
  exact ⟨s, run, one, by decide, reached, records_wellFormed (by decide) reached⟩

end Pipeline
end Courier
