import Courier.Proofs.Reports

namespace Courier

open Prog

namespace Retry.Policy

variable {policy : Policy}

theorem jitterBound_of_plain (plain : policy.jitter = false) (failures : Nat) :
    policy.jitterBound failures = 0 := by
  simp [jitterBound, plain]

theorem decide?_of_plain (plain : policy.jitter = false) (failures extra : Nat) (now : Instant) :
    policy.decide? failures extra now =
      if policy.maxAttempts ≤ failures then some .giveUp
      else (now.add? (policy.baseDelayFor failures)).map
        (.retryAt (policy.baseDelayFor failures)) := by
  simp [decide?, delayFor?, jitterBound_of_plain plain]

end Retry.Policy

namespace Service

/-- What is written, what the write means, and the job that is pushed before it, with the event that
is logged for the push. -/
structure Ruling where
  next : Notification
  wrap : Notification → Recorded
  retry : Option (Job × Event)

variable (policy : Retry.Policy) (cur : Notification) (time : Instant)

/-- The job for the attempt after one that fails at that time, if attempts are left and the attempt
does not lie beyond all dates. -/
def retryJob? : Option Job :=
  if policy.maxAttempts ≤ attemptsAfter policy cur then none
  else (time.add? (policy.baseDelayFor (attemptsAfter policy cur))).map fun retryAt =>
    ⟨cur.id, attemptsAfter policy cur, time, retryAt⟩

def retryScheduled (message : String) : Event :=
  ⟨.warn, "Delivery failed, retry scheduled",
    [idField cur.id, ("attempt_count", .count (attemptsAfter policy cur)),
      ("delay_secs", .count (policy.baseDelayFor (attemptsAfter policy cur)).seconds),
      ("error", .text message)]⟩

/-- The ruling on a report, if there is one: a retry may lie beyond all dates. -/
def ruling? : Outcome → Option Ruling
  | .success =>
    some ⟨{ tried policy cur time with
      status := .sent
      sentAt := some time
      failedAt := none
      errorMessage := none
      nextRetryAt := none }, .sent, none⟩
  | .permanent message =>
    some ⟨{ tried policy cur time with attemptCount := policy.maxAttempts }.failedWith time message,
      .failed, none⟩
  | .transient message =>
    if policy.maxAttempts ≤ attemptsAfter policy cur then
      some ⟨(tried policy cur time).failedWith time
        s!"Failed after {attemptsAfter policy cur} attempts: {message}", .failed, none⟩
    else
      (retryJob? policy cur time).map fun job =>
        ⟨{ tried policy cur time with
            errorMessage := some message
            nextRetryAt := some job.visibleAt },
          .retryScheduled, some (job, retryScheduled policy cur message)⟩

/-- What is done about a ruling before the write. -/
def Ruling.prepared (ruling : Ruling) (id : Uuid) :
    Prog (Except Error (Notification × (Notification → Recorded))) :=
  match ruling.retry with
  | none => pure (.ok (ruling.next, ruling.wrap))
  | some (job, event) => do
    match ← Prog.enqueue job with
    | .error e => pure (.error (.retryNotScheduled id e))
    | .ok () =>
      note event
      pure (.ok (ruling.next, ruling.wrap))

variable {policy cur time} {outcome : Outcome} {ruling : Ruling} {job : Job}

theorem applied_of_plain (plain : policy.jitter = false) (cur : Notification) (outcome : Outcome)
    (time : Instant) :
    applied policy cur outcome time =
      orAbort (ruling? policy cur time outcome) >>= fun ruling => ruling.prepared cur.id := by
  cases outcome with
  | success => rfl
  | permanent message => rfl
  | transient message =>
      simp only [applied, Retry.Policy.decide?_of_plain plain,
        Retry.Policy.jitterBound_of_plain plain,
        ite_self, ↓reduceIte, pure_bind, ruling?, retryJob?]
      by_cases spent : policy.maxAttempts ≤ attemptsAfter policy cur
      · simp only [spent, ↓reduceIte]
        rfl
      · simp only [spent, ↓reduceIte]
        cases time.add? (policy.baseDelayFor (attemptsAfter policy cur)) with
        | none => rfl
        | some retryAt => rfl

theorem retryJob?_eq_some (h : retryJob? policy cur time = some job) :
    attemptsAfter policy cur < policy.maxAttempts ∧ job.key = (cur.id, cur.attemptCount + 1) ∧
      job.enqueuedAt = time ∧
      time.add? (policy.baseDelayFor (cur.attemptCount + 1)) = some job.visibleAt := by
  unfold retryJob? at h
  split at h
  · cases h
  · rename_i left
    obtain ⟨retryAt, due, rfl⟩ := Option.map_eq_some_iff.mp h
    have left := Nat.lt_of_not_le left
    have count := attemptsAfter_of_left left
    rw [count] at due
    exact ⟨left, by rw [Job.key, count], rfl, due⟩

theorem transient_of_retry {event : Event} (h : ruling? policy cur time outcome = some ruling)
    (retry : ruling.retry = some (job, event)) : ∃ message, outcome = .transient message := by
  cases outcome with
  | transient message => exact ⟨message, rfl⟩
  | success =>
      cases h
      cases retry
  | permanent message =>
      cases h
      cases retry

/-- A retry job does not depend on what went wrong. -/
theorem retryJob?_of_ruling {event : Event} (h : ruling? policy cur time outcome = some ruling)
    (retry : ruling.retry = some (job, event)) : retryJob? policy cur time = some job := by
  obtain ⟨message, rfl⟩ := transient_of_retry h retry
  simp only [ruling?] at h
  split at h
  · cases h
    cases retry
  · obtain ⟨made, found, rfl⟩ := Option.map_eq_some_iff.mp h
    cases retry
    exact found

theorem not_transient_of_last (h : ruling? policy cur time outcome = some ruling)
    (last : ruling.retry = none) (due : retryJob? policy cur time = some job) (message : String) :
    outcome ≠ .transient message := by
  rintro rfl
  rw [ruling?, if_neg (Nat.not_le_of_lt (retryJob?_eq_some due).1), due] at h
  cases h
  cases last

theorem due_of_no_ruling (h : ruling? policy cur time outcome = none) :
    time.add? (policy.baseDelayFor (attemptsAfter policy cur)) = none := by
  cases outcome with
  | success => cases h
  | permanent message => cases h
  | transient message =>
      simp only [ruling?] at h
      split at h
      · cases h
      · rename_i left
        have none := Option.map_eq_none_iff.mp h
        rw [retryJob?, if_neg left] at none
        exact Option.map_eq_none_iff.mp none

theorem reported_of_ruling (plain : policy.jitter = false)
    (h : ruling? policy cur time outcome = some ruling) :
    Reported policy cur time outcome ruling.next ruling.wrap := by
  cases outcome with
  | success =>
      cases h
      exact .sent
  | permanent message =>
      cases h
      exact .refused
  | transient message =>
      simp only [ruling?] at h
      split at h
      · rename_i spent
        cases h
        exact .exhausted spent
      · rename_i left
        obtain ⟨job, made, rfl⟩ := Option.map_eq_some_iff.mp h
        unfold retryJob? at made
        rw [if_neg left] at made
        obtain ⟨retryAt, due, rfl⟩ := Option.map_eq_some_iff.mp made
        apply Reported.retried (Nat.lt_of_not_le left)
        · rw [Retry.Policy.decide?_of_plain plain _ 0, if_neg left, due]
          rfl

theorem terminal_of_ruling (h : ruling? policy cur time outcome = some ruling)
    (last : ruling.retry = none) : ruling.next.status.isTerminal = true := by
  cases outcome with
  | success =>
      cases h
      rfl
  | permanent message =>
      cases h
      rfl
  | transient message =>
      simp only [ruling?] at h
      split at h
      · cases h
        rfl
      · obtain ⟨job, _, rfl⟩ := Option.map_eq_some_iff.mp h
        cases last

theorem retried_of_ruling {event : Event} (h : ruling? policy cur time outcome = some ruling)
    (retry : ruling.retry = some (job, event)) :
    ruling.next.status = cur.status ∧ ruling.next.attemptCount = cur.attemptCount + 1 ∧
      ruling.wrap = .retryScheduled := by
  obtain ⟨left, key, _, _⟩ := retryJob?_eq_some (retryJob?_of_ruling h retry)
  obtain ⟨message, rfl⟩ := transient_of_retry h retry
  rw [ruling?, if_neg (Nat.not_le_of_lt left)] at h
  obtain ⟨made, _, rfl⟩ := Option.map_eq_some_iff.mp h
  exact ⟨rfl, attemptsAfter_of_left left, rfl⟩

end Service

/-- The program is carried out alone, and that is what it comes to. -/
abbrev Prog.Comes {α : Type} (post : Option α → Backend → Prop) (p : Prog α) (b : Backend) : Prop :=
  p.Meets .still (fun _ => True) (fun result _ b => post result b) b

theorem comes_ask {α : Type} {post : Option α → Backend → Prop} {b : Backend} {r : Request}
    {f : r.Reply → Prog α} {step : Backend.Step r.Reply} (answer : ∀ c, b.answer c r = some step)
    (h : (f step.reply).Comes post step.backend) : (ask r f).Comes post b := by
  intro before c given same _ answered
  obtain rfl : before = b := same
  rw [answer c] at answered
  cases answered
  exact ⟨trivial, h⟩

theorem comes_log {α : Type} {post : Option α → Backend → Prop} {b : Backend} {e : Event}
    {rest : Prog α} (h : rest.Comes post b) : (log e rest).Comes post b := h

namespace Service

/-- The write of a try. If it comes too late, that is where the call goes on. -/
def writeOn (next : Notification) (wrap : Notification → Recorded)
    (again : Prog (Except Error Recorded)) : Prog (Except Error Recorded) := do
  match ← update next with
  | .ok stored =>
    noteAll (closing stored)
    pure (.ok (wrap stored))
  | .error e => if e.isConflict then again else pure (.error e)

/-- What a try does when it has read a record that waits for the attempt. -/
def tryOn (policy : Retry.Policy) (cur : Notification) (outcome : Outcome)
    (again : Prog (Except Error Recorded)) : Prog (Except Error Recorded) := do
  let time ← now
  if Notification.attemptLimit ≤ cur.attemptCount + 1 then abort
  else
    match ← applied policy cur outcome time with
    | .error e => pure (.error e)
    | .ok (next, wrap) => writeOn next wrap again

variable (policy : Retry.Policy) (id : Uuid) (attempt : Nat) (outcome : Outcome) (b : Backend)

/-- What a report comes to that is made alone: how it ends, and the backends after it. -/
def alone : Prog (Except Error Recorded) × Backend :=
  match b.store.find? id with
  | none => (.done (.error (.notificationNotFound id)), b)
  | some cur =>
    if cur.status = .queued ∧ cur.attemptCount = attempt then
      if Notification.attemptLimit ≤ cur.attemptCount + 1 then (.abort, b)
      else
        match ruling? policy cur b.clock outcome with
        | none => (.abort, b)
        | some ruling =>
          (.done (.ok (ruling.wrap (Store.merged cur ruling.next))),
            { b with
              store := b.store.put (Store.merged cur ruling.next)
              queue := (ruling.retry.map Prod.fst).elim b.queue b.queue.push })
    else (.done (.ok (.stale cur)), b)

variable {policy id attempt outcome b}

theorem record_comes (plain : policy.jitter = false) (store : b.store.available = true)
    (queue : b.queue.available = true) :
    (record policy id attempt outcome).Comes (fun result b' =>
      (result.elim .abort .done, b') = alone policy id attempt outcome b) b := by
  have read : b.store.get id = .ok (b.store.find? id) := if_pos store
  apply comes_ask (fun _ => rfl)
  simp only [Backend.reading, read]
  unfold alone
  cases found : b.store.find? id with
  | none => rfl
  | some cur =>
      simp only []
      show Comes _ (if cur.status = .queued ∧ cur.attemptCount = attempt then _ else _) b
      split
      · apply comes_ask (fun _ => rfl)
        show Comes _ (if Notification.attemptLimit ≤ cur.attemptCount + 1 then _ else
          applied policy cur outcome b.clock >>= _) b
        split
        · rfl
        · rw [applied_of_plain plain, bind_assoc]
          cases ruled : ruling? policy cur b.clock outcome with
          | none => rfl
          | some ruling =>
              have reported := reported_of_ruling plain ruled
              obtain ⟨next, wrap, retry⟩ := ruling
              have same : next.id = cur.id := reported.id_eq
              have found : b.store.find? next.id = some cur := by
                rw [same, Store.id_of_find? found]
                exact found
              have updated := Store.update_of_current store found reported.version_eq.symm
              cases retry with
              | none =>
                  apply comes_ask (fun _ => rfl)
                  simp only [Backend.update, updated]
                  exact meets_noteAll rfl
              | some retry =>
                  have pushed : b.queue.enqueue retry.1 = .ok (b.queue.push retry.1) := if_pos queue
                  apply comes_ask (fun _ => rfl)
                  simp only [Backend.enqueue, pushed]
                  apply comes_log
                  apply comes_ask (fun _ => rfl)
                  simp only [Backend.update, updated]
                  exact meets_noteAll rfl
      · rfl

/-- A report that is made alone ends, and comes to just that. -/
theorem record_alone (plain : policy.jitter = false) (store : b.store.available = true)
    (queue : b.queue.available = true) :
    ∃ conv, (record policy id attempt outcome).Goes .still b conv
      (alone policy id attempt outcome b).1 (alone policy id attempt outcome b).2 := by
  have served (b : Backend) (r : Request) (inward : r.isInward = true) :
      ∃ c step, Surroundings.still.allows b c r ∧ b.answer c r = some step := by
    obtain ⟨step, answered⟩ := b.answers ⟨id, 0, none⟩ inward
    exact ⟨_, step, trivial, answered⟩
  have comes : (record policy id attempt outcome).Comes (fun result b' =>
      (result.elim .abort .done, b') = alone policy id attempt outcome b) b :=
    record_comes plain store queue
  obtain ⟨conv, q, b', course, ended⟩ :=
    (recordIn_inward writeTries).ends (fun _ => rfl) served comes
  refine ⟨conv, ?_⟩
  rcases ended with ⟨a, rfl, same⟩ | ⟨rfl, same⟩
  · rw [← same]
    exact course
  · rw [← same]
    exact course

theorem eq_alone {conv : Conversation} {final : Prog (Except Error Recorded)} {b' : Backend}
    (plain : policy.jitter = false) (store : b.store.available = true)
    (queue : b.queue.available = true)
    (course : (record policy id attempt outcome).Goes .still b conv final b')
    (finished : Call.isOver ⟨.record id attempt outcome, final⟩ = true) :
    (final, b') = alone policy id attempt outcome b := by
  have ended := (record_comes plain store queue).goes course
  cases final with
  | done a => exact ended
  | abort => exact ended
  | log e rest => cases finished
  | ask r next => cases finished

end Service
end Courier
