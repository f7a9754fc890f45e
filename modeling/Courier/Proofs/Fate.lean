import Courier.Proofs.Rulings

/-!
What becomes of a notification, as a fold over the outcomes of its attempts and the times at which
they were reported. Where delays have no random part, a report makes of the record that stands for
one stage of the fold the record that stands for the next.
-/
namespace Courier

open Service

/-- The outcome of an attempt, and when it was reported. -/
abbrev Attempted := Outcome × Instant

inductive Fate where
  /-- So many attempts have failed, the last of them with that message and at that time. -/
  | waiting (failures : Nat) (last : Option (String × Instant))
  | sent (attempts : Nat) (time : Instant)
  | failed (message : String) (time : Instant)

namespace Fate

def start : Fate := waiting 0 none

/-- A success and a permanent failure put an end to the delivery, and so does the last of the
attempts that there may be. -/
def after (maxAttempts : Nat) : Fate → Attempted → Fate
  | waiting failures _, (.success, time) => sent (failures + 1) time
  | waiting _ _, (.permanent message, time) => failed message time
  | waiting failures _, (.transient message, time) =>
    if failures + 1 < maxAttempts then waiting (failures + 1) (some (message, time))
    else failed s!"Failed after {maxAttempts} attempts: {message}" time
  | finished, _ => finished

def ofReports (maxAttempts : Nat) (reports : List Attempted) : Fate :=
  reports.foldl (after maxAttempts) start

/-- The record after so many reports on a notification that was queued as `n`. -/
def record (policy : Retry.Policy) (n : Notification) (reports : Nat) : Fate → Notification
  | waiting failures last =>
    { n with
      attemptCount := failures
      errorMessage := last.map fun failure => failure.1
      nextRetryAt := last.bind fun failure => failure.2.add? (policy.baseDelayFor failures)
      updatedAt := (last.map fun failure => failure.2).getD n.updatedAt
      version := n.version + reports }
  | sent attempts time =>
    { n with
      status := .sent
      attemptCount := attempts
      errorMessage := none
      nextRetryAt := none
      updatedAt := time
      sentAt := some time
      failedAt := none
      version := n.version + reports }
  | failed message time =>
    { n with
      status := .failed
      attemptCount := policy.maxAttempts
      errorMessage := some message
      nextRetryAt := none
      updatedAt := time
      sentAt := none
      failedAt := some time
      version := n.version + reports }

/-- What the report that led here is answered. -/
def answer (n : Notification) : Fate → Recorded
  | waiting _ _ => .retryScheduled n
  | sent _ _ => .sent n
  | failed _ _ => .failed n

/-- The jobs of the notification: one for the next attempt, due at the time that the record shows,
and at once before the first attempt; none in the end. -/
def Leaves (n : Notification) : Fate → List Job → Prop
  | waiting failures _, jobs => ∃ job, jobs = [job] ∧ job.key = (n.id, failures) ∧
      job.visibleAt = n.nextRetryAt.getD job.enqueuedAt
  | _, jobs => jobs = []

variable {maxAttempts failures : Nat} {reports : List Attempted} {last : Option (String × Instant)}

theorem ofReports_snoc (maxAttempts : Nat) (reports : List Attempted) (report : Attempted) :
    ofReports maxAttempts (reports ++ [report]) =
      (ofReports maxAttempts reports).after maxAttempts report := by
  simp [ofReports]

theorem after_eq_waiting {fate : Fate} {report : Attempted}
    (h : fate.after maxAttempts report = waiting failures last) : failures < maxAttempts := by
  obtain ⟨outcome, time⟩ := report
  cases fate with
  | waiting count previous =>
      cases outcome with
      | success => cases h
      | permanent message => cases h
      | transient message =>
          simp only [after] at h
          split at h
          · cases h
            assumption
          · cases h
  | sent attempts time => cases h
  | failed message time => cases h

theorem left_of_ofReports (positive : 1 ≤ maxAttempts)
    (h : ofReports maxAttempts reports = waiting failures last) : failures < maxAttempts := by
  cases reports using List.reverseRecOn with
  | nil =>
      cases h
      exact positive
  | append_singleton reports report =>
      rw [ofReports_snoc] at h
      exact after_eq_waiting h

variable {policy : Retry.Policy} {n : Notification} {count : Nat} {outcome : Outcome}
  {time : Instant} {ruling : Ruling}

/-- A report takes the record from one stage of the fold to the next. -/
theorem after_of_ruling (left : failures < policy.maxAttempts) (last : Option (String × Instant))
    (ruled : ruling? policy ((waiting failures last).record policy n count) time outcome =
      some ruling) :
    let next := (waiting failures last).after policy.maxAttempts (outcome, time)
    let stored := Store.merged ((waiting failures last).record policy n count) ruling.next
    stored = next.record policy n (count + 1) ∧ ruling.wrap stored = next.answer stored ∧
      next.Leaves stored (ruling.retry.map Prod.fst).toList := by
  intro next stored
  have counted : min (failures + 1) policy.maxAttempts = failures + 1 := Nat.min_eq_left left
  have version : n.version + (count : Int) + 1 = n.version + ((count + 1 : Nat) : Int) := by omega
  cases outcome with
  | success =>
      cases ruled
      refine ⟨?_, rfl, rfl⟩
      simp only [next, stored, after, record, Store.merged, tried, attemptsAfter, counted, version]
  | permanent message =>
      cases ruled
      refine ⟨?_, rfl, rfl⟩
      simp only [next, stored, after, record, Store.merged, tried, Notification.failedWith, version]
  | transient message =>
      simp only [ruling?] at ruled
      split at ruled
      · rename_i spent
        have spent : policy.maxAttempts ≤ min (failures + 1) policy.maxAttempts := spent
        have last : policy.maxAttempts = failures + 1 := by omega
        have finished : next =
            failed s!"Failed after {policy.maxAttempts} attempts: {message}" time :=
          if_neg (by omega)
        cases ruled
        rw [finished]
        refine ⟨?_, rfl, rfl⟩
        simp only [stored, record, Store.merged, tried, Notification.failedWith,
          attemptsAfter, version, last, Nat.min_self]
      · rename_i more
        obtain ⟨job, made, rfl⟩ := Option.map_eq_some_iff.mp ruled
        obtain ⟨more, key, queuedAt, due⟩ := retryJob?_eq_some made
        have more : min (failures + 1) policy.maxAttempts < policy.maxAttempts := more
        have again : next = waiting (failures + 1) (some (message, time)) := if_pos (by omega)
        have due : time.add? (policy.baseDelayFor (failures + 1)) = some job.visibleAt := due
        rw [again]
        refine ⟨?_, rfl, job, rfl, key, rfl⟩
        simp only [stored, record, Store.merged, tried, attemptsAfter, counted, version,
          Option.map_some, Option.bind_some, due, Option.getD_some]

end Fate
end Courier
