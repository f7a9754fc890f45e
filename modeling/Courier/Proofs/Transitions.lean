import Courier.Proofs.RecordInvariant

namespace Courier

namespace Notification

/-- What is fixed at creation. -/
structure SameContent (x y : Notification) : Prop where
  id : x.id = y.id
  channel : x.channel = y.channel
  recipient : x.recipient = y.recipient
  payload : x.payload = y.payload
  createdAt : x.createdAt = y.createdAt

/-- The legal transitions from version `x` to `y`, where `before` is the version right before `x`.
A record fails without an attempt only where a reset is taken back, and is then as it was before the
reset but for its version and the time of the write. -/
inductive Transition (before : Option Notification) (x y : Notification) : Prop
  | start (pending : x.status = .pending) (queued : y.status = .queued)
      (kept : y.attemptCount = x.attemptCount)
  | retry (queued : x.status = .queued) (again : y.status = .queued)
      (counted : y.attemptCount = x.attemptCount + 1)
  | deliver (queued : x.status = .queued) (sent : y.status = .sent)
      (counted : y.attemptCount = x.attemptCount + 1)
  | fail (queued : x.status = .queued) (failed : y.status = .failed)
  | reset (failed : x.status = .failed) (pending : y.status = .pending)
      (fresh : y.attemptCount = 0)
  | restore {original : Notification} (resetFrom : before = some original)
      (wasFailed : original.status = .failed) (pending : x.status = .pending)
      (restored : y = { original with version := y.version, updatedAt := y.updatedAt })

/-- The versions of the notification with that identifier, from the first one on, as they may follow
one another: numbered from zero, each made of the one before by a legal transition that keeps what
was fixed at creation, and nothing after a version that was sent. -/
structure LegalHistory (id : Uuid) (versions : List Notification) : Prop where
  numbered : ∀ (i : Nat) n, versions[i]? = some n → n.id = id ∧ n.version = i
  moves : ∀ (i : Nat) x y, versions[i]? = some x → versions[i + 1]? = some y →
    SameContent x y ∧ Transition (versions.take i).getLast? x y
  final : ∀ (i : Nat) n, versions[i]? = some n → n.status = .sent → i + 1 = versions.length

theorem Transition.status_ne_sent {before : Option Notification} {x y : Notification}
    (h : Transition before x y) : x.status ≠ .sent := by
  cases h with
  | start pending _ _ => exact fun sent => nomatch pending.symm.trans sent
  | retry queued _ _ => exact fun sent => nomatch queued.symm.trans sent
  | deliver queued _ _ => exact fun sent => nomatch queued.symm.trans sent
  | fail queued _ => exact fun sent => nomatch queued.symm.trans sent
  | reset failed _ _ => exact fun sent => nomatch failed.symm.trans sent
  | restore _ _ pending _ => exact fun sent => nomatch pending.symm.trans sent

end Notification

open Notification (SameContent Transition)

variable {policy : Retry.Policy} {past : Past} {x y n : Notification} {id : Uuid} {i call : Nat}

theorem Past.Rewrote.sameContent (h : past.Rewrote policy call x y) : SameContent x y := by
  cases h with
  | intro asker seen rewrite => exact ⟨rewrite.id_eq.symm, rfl, rfl, rfl, rfl⟩

/-- A report of an attempt that was left counts that attempt, unless it ends the record for good. -/
theorem Service.Reported.transition {cur next : Notification} {time : Instant} {outcome : Outcome}
    {wrap : Notification → Service.Recorded} {before : Option Notification}
    (h : Service.Reported policy cur time outcome next wrap) (queued : cur.status = .queued)
    (left : cur.attemptCount < policy.maxAttempts) :
    Transition before cur (Store.merged cur next) := by
  have counted : attemptsAfter policy cur = cur.attemptCount + 1 := Nat.min_eq_left left
  cases h with
  | sent => exact .deliver queued rfl counted
  | refused => exact .fail queued rfl
  | exhausted spent => exact .fail queued rfl
  | retried more decided => exact .retry queued queued counted

/-- The record that a reset replaced is the version right before the one that it stored. -/
theorem Past.Accounted.reset_from {failed old : Notification} {time : Instant}
    (h : past.Accounted policy) (found : (past.versions id)[i]? = some x)
    (known : failed ∈ past.versions id) (replaced : old ∈ past.versions id)
    (same : old.version = failed.version) (reset : x = Store.merged old (failed.resetAt time)) :
    old = failed ∧ ((past.versions id).take i).getLast? = some failed := by
  refine ⟨h.eq_of_version_eq replaced known same, ?_⟩
  obtain ⟨j, at_⟩ := List.getElem?_of_mem known
  have numbered := h.version_eq found
  have first := h.version_eq at_
  have next : x.version = failed.version + 1 := by rw [reset]; rfl
  obtain rfl : i = j + 1 := by omega
  obtain ⟨bound, _⟩ := List.getElem?_eq_some_iff.mp at_
  rw [List.getLast?_eq_getElem?, List.length_take, Nat.min_eq_left bound, List.getElem?_take,
    if_pos (by omega)]
  exact at_

/-- Each version goes over into the next one legally. -/
theorem Past.Accounted.transition (h : past.Accounted policy) (positive : 1 ≤ policy.maxAttempts)
    (first : (past.versions id)[i]? = some x) (second : (past.versions id)[i + 1]? = some y) :
    SameContent x y ∧ Transition ((past.versions id).take i).getLast? x y := by
  obtain ⟨writer, wrote⟩ := getElem?_versions.mp first
  obtain ⟨call, rewrote⟩ := getElem?_versions.mp second
  have rewrote := (h id).rewrote wrote rewrote
  refine ⟨rewrote.sameContent, ?_⟩
  have known : x ∈ past.versions id := List.mem_of_getElem? first
  have fits := (h.wellFormed positive known).fits
  cases rewrote with
  | intro asker seen rewrite =>
      cases rewrite with
      | queue able pending backed => exact .start pending rfl rfl
      | report reports queued reported job =>
          simp only [Notification.FitsStatus, queued] at fits
          exact reported.transition queued fits.1
      | reset able failed => exact .reset failed rfl rfl
      | @restore failed old before able mem wasFailed replaced same reset =>
          rw [id_of_mem_versions known] at mem replaced
          obtain ⟨rfl, resetFrom⟩ := h.reset_from first mem replaced same reset
          subst reset
          exact .restore resetFrom wasFailed rfl rfl

namespace Pipeline

variable {d : Deployment} {allowed : Pipeline → Move → Prop} {clock : Instant} {s : Pipeline}

/-- In every run of any calls, the store holds the last version of every notification, and the
versions so far are a legal history. -/
theorem versions_legal (positive : 1 ≤ d.policy.maxAttempts)
    (reached : Reachable d allowed clock s) (id : Uuid) :
    s.backend.store.find? id = (s.past.versions id).getLast? ∧
      Notification.LegalHistory id (s.past.versions id) := by
  have accounted := accounted_of_reachable reached
  refine ⟨?_, ?_, fun i x y => accounted.transition positive, ?_⟩
  · exact (keeping_of_reachable (contract_kept d) reached).describes.found id
  · intro i n found
    exact ⟨Past.id_of_mem_versions (List.mem_of_getElem? found), accounted.version_eq found⟩
  · intro i n found sent
    by_cases last : i + 1 = (s.past.versions id).length
    · exact last
    · obtain ⟨y, second⟩ := Past.exists_next found last
      obtain ⟨_, moved⟩ := accounted.transition positive found second
      exact absurd sent moved.status_ne_sent

/-- Three reports leave four versions, from pending to sent, that legally follow one another. -/
theorem versions_legal_after_race : ∃ s,
    (initial Sample.clock).run? Sample.deployment anything Sample.race = some s ∧
      (s.past.versions Sample.id).map (fun n => (n.status, n.attemptCount)) =
        [(.pending, 0), (.queued, 0), (.queued, 1), (.sent, 2)] ∧
      s.backend.store.find? Sample.id = (s.past.versions Sample.id).getLast? ∧
      Notification.LegalHistory Sample.id (s.past.versions Sample.id) := by
  have run : ∃ s, (initial Sample.clock).run? Sample.deployment anything Sample.race = some s ∧
      (s.past.versions Sample.id).map (fun n => (n.status, n.attemptCount)) =
        [(.pending, 0), (.queued, 0), (.queued, 1), (.sent, 2)] := ⟨_, rfl, rfl⟩
  obtain ⟨s, run, versions⟩ := run
  have reached := Reachable.initial.run run
  exact ⟨s, run, versions, versions_legal (by decide) reached Sample.id⟩

end Pipeline
end Courier
