import Courier.Proofs.Elsewhere
import Courier.Proofs.Fate

namespace Courier

open Prog

theorem Message.field?_of_hasText {payload : Json} {name : String}
    (h : Payload.hasText payload name = true) : ∃ s, Message.field? payload name = some s := by
  unfold Payload.hasText at h
  unfold Message.field?
  split at h
  · rename_i s found
    rw [found]
    have filled : Text.isBlankText s = false := by simpa using h
    exact ⟨Text.trimmed s, by simp [filled]⟩
  · cases h

theorem Message.render_of_valid {channel : Channel} {payload : Json}
    (valid : Payload.validate channel payload = .ok ()) :
    ∃ message, Message.render channel payload = .ok message := by
  cases payload with
  | object members =>
      simp only [Payload.validate] at valid
      split at valid
      · rename_i complete
        have filled (field : String) (mem : field ∈ Payload.requiredFields channel) :
            ∃ s, Message.required (.object members) field = .ok s := by
          have has := List.filter_eq_nil_iff.mp complete field mem
          obtain ⟨s, found⟩ := Message.field?_of_hasText (by simpa using has)
          exact ⟨s, by rw [Message.required, found]⟩
        cases channel with
        | email =>
            obtain ⟨s, found⟩ := filled "subject" List.mem_cons_self
            exact ⟨_, by rw [Message.render, found]; rfl⟩
        | sms =>
            obtain ⟨s, found⟩ := filled "body" List.mem_cons_self
            exact ⟨_, by rw [Message.render, found]; rfl⟩
        | push =>
            obtain ⟨s, found⟩ := filled "title" List.mem_cons_self
            exact ⟨_, by rw [Message.render, found]; rfl⟩
      · cases valid
  | _ => cases valid

namespace Conversation

def times (conv : Conversation) : List Instant :=
  conv.filterMap fun x =>
    match x with
    | ⟨.now, time⟩ => some time
    | _ => none

def sends (conv : Conversation) : Conversation := conv.filter fun x => x.1.isSend

theorem mem_times {conv : Conversation} {time : Instant} (read : ⟨.now, time⟩ ∈ conv) :
    time ∈ conv.times := List.mem_filterMap.mpr ⟨_, read, rfl⟩

theorem times_append (conv more : Conversation) :
    Conversation.times (conv ++ more) = conv.times ++ more.times := List.filterMap_append

theorem sends_append (conv more : Conversation) :
    Conversation.sends (conv ++ more) = conv.sends ++ more.sends := List.filter_append _ _

end Conversation

def Submission.Accepted (s : Submission) (id : Uuid) (n : Notification) : Prop :=
  ∃ created queued, n =
    { Notification.create id { s with recipient := Text.trimmed s.recipient } created with
      status := .queued
      queuedAt := some queued
      updatedAt := queued
      version := 1 }

namespace Service

variable {id : Uuid} {allows : Choice → Prop} {told : Conversation} {b : Backend}
  {policy : Retry.Policy} {cur : Notification} {outcome : Outcome} {lease : Lease}

/-- A pending notification that is enqueued is queued, with a job for its attempt. -/
theorem enqueue_amid {n : Notification} (pending : n.status = .pending)
    (h : b.Shows n.id (some n) [] []) :
    (enqueue n).Amid n.id allows told (fun result _ after => ∃ time queued,
      result = some (.ok (Store.merged n (n.queuedFrom queued))) ∧
        after.Shows n.id (some (Store.merged n (n.queuedFrom queued)))
          [.immediate n.id n.attemptCount time] []) b := by
  simp only [enqueue, pending]
  apply amid_now h
  intro time b h
  have own : (Job.immediate n.id n.attemptCount time).notificationId = n.id := rfl
  have fresh : ∀ other ∈ ([] : List Job),
      other.key ≠ (Job.immediate n.id n.attemptCount time).key := by
    intro other mem
    cases mem
  apply amid_push own fresh h
  intro b h
  apply amid_get h
  intro b h
  show Amid _ _ _ _ (if n.status = .pending then _ else _) b
  rw [if_pos pending]
  apply amid_now h
  intro queued b h
  have same : (n.queuedFrom queued).id = n.id := rfl
  have current : n.version = (n.queuedFrom queued).version := rfl
  apply amid_update same current h
  intro b h
  apply onward_note
  apply onward_pure
  exact ⟨time, queued, rfl, h⟩

theorem create_amid {s : Submission} (h : b.Shows id none [] []) :
    (create s).Amid id (fun c => c.id = id) [] (fun result _ after => ∀ n, result = some (.ok n) →
      Payload.validate s.channel s.payload = .ok () ∧ s.Accepted id n ∧
        ∃ time, after.Shows id (some n) [.immediate id 0 time] []) b := by
  unfold create
  simp only []
  split
  · exact onward_pure fun _ same => nomatch same
  · split
    · exact onward_pure fun _ same => nomatch same
    · rename_i valid
      apply amid_now h
      intro created b h
      apply amid_ask h
      intro before c step h own answered
      cases answered
      obtain rfl : c.id = id := own
      let n := Notification.create c.id { s with recipient := Text.trimmed s.recipient } created
      have same : n.id = c.id := rfl
      apply amid_insert same h
      intro b h
      apply onward_note
      have pending : n.status = .pending := rfl
      apply (enqueue_amid pending h).mono
      intro result _ after ⟨time, queued, ended, shows⟩ m same
      rw [ended] at same
      cases same
      exact ⟨valid, ⟨created, queued, rfl⟩, time, shows⟩

/-- What the report of the attempt that a held job asks for comes to. -/
inductive Settled (policy : Retry.Policy) (cur : Notification) (outcome : Outcome) (lease : Lease)
    (told : Conversation) : Option (Except Error Recorded) → Conversation → Backend → Prop
  | ruled {time : Instant} {ruling : Ruling} {conv : Conversation} {after : Backend}
      (ruled : ruling? policy cur time outcome = some ruling)
      (times : conv.times = Conversation.times told ++ [time])
      (sends : conv.sends = Conversation.sends told)
      (shows : after.Shows cur.id (some (Store.merged cur ruling.next))
        (ruling.retry.map Prod.fst).toList [(lease.token, lease.job)]) :
      Settled policy cur outcome lease told
        (some (.ok (ruling.wrap (Store.merged cur ruling.next))))
        conv after
  | broken {time : Instant} {conv : Conversation} {after : Backend}
      (unruled : ruling? policy cur time outcome = none)
      (times : conv.times = Conversation.times told ++ [time]) :
      Settled policy cur outcome lease told none conv after

/-- The report of the current attempt is applied, unless the next one would lie beyond all dates. -/
theorem recordIn_amid (plain : policy.jitter = false) (queued : cur.status = .queued)
    (own : lease.job.key = (cur.id, cur.attemptCount))
    (counted : cur.attemptCount + 1 < Notification.attemptLimit) (tries : Nat)
    (h : b.Shows cur.id (some cur) [] [(lease.token, lease.job)]) :
    (recordIn policy cur.id cur.attemptCount outcome (tries + 1)).Amid cur.id allows told
      (Settled policy cur outcome lease told) b := by
  apply amid_get h
  intro b h
  show Amid _ _ _ _ (if cur.status = .queued ∧ cur.attemptCount = cur.attemptCount then _ else _) b
  rw [if_pos ⟨queued, rfl⟩]
  apply amid_now h
  intro time b h
  show Amid _ _ _ _ (if Notification.attemptLimit ≤ cur.attemptCount + 1 then _ else
    applied policy cur outcome time >>= _) b
  rw [if_neg (by omega), applied_of_plain plain, bind_assoc]
  apply onward_orAbort
  · intro unruled
    exact .broken unruled (by simp [Conversation.times])
  · intro ruling ruled
    have reported := reported_of_ruling plain ruled
    have version : cur.version = ruling.next.version := reported.version_eq.symm
    obtain ⟨next, wrap, retry⟩ := ruling
    cases retry with
    | none =>
        apply amid_update reported.id_eq version h
        intro b h
        apply onward_noteAll
        apply onward_pure
        refine .ruled ruled ?_ ?_ h
        · simp [Conversation.times]
        · simp [Conversation.sends, Request.isSend]
    | some retry =>
        obtain ⟨job, event⟩ := retry
        have made : retryJob? policy cur time = some job := retryJob?_of_ruling ruled rfl
        obtain ⟨_, key, _⟩ := retryJob?_eq_some made
        have other : lease.job.key ≠ job.key := by
          rw [own, key]
          intro same
          have := (Prod.mk.inj same).2
          omega
        have fresh : ∀ waits ∈ ([] : List Job), waits.key ≠ job.key := by
          intro waits mem
          cases mem
        apply amid_push (Prod.mk.inj key).1 fresh h
        intro b h
        have h : b.Shows cur.id (some cur) [job] [(lease.token, lease.job)] := by
          simpa [other] using h
        apply onward_log
        apply amid_update reported.id_eq version h
        intro b h
        apply onward_noteAll
        apply onward_pure
        refine .ruled ruled ?_ ?_ h
        · simp [Conversation.times]
        · simp [Conversation.sends, Request.isSend]

end Service

namespace Worker

open Service (Ruling ruling? Settled)

variable {policy : Retry.Policy} {emitters : Emitters} {limit : Duration} {cur : Notification}
  {lease : Lease} {message : Message} {said : Except EmitError Unit} {provider : String}
  {told : Conversation} {b : Backend}

/-- What the handling of a job comes to when the provider answers: one message, and the outcome of
the attempt recorded. -/
inductive Handled (policy : Retry.Policy) (limit : Duration) (cur : Notification)
    (message : Message) (said : Except EmitError Unit) :
    Option JobOutcome → Conversation → Backend → Prop
  | recorded {time : Instant} {ruling : Ruling} {conv : Conversation} {after : Backend}
      (ruled : ruling? policy cur time (outcomeOf limit (some said)) = some ruling)
      (times : conv.times = [time])
      (sends : conv.sends = [⟨.send cur.channel cur.recipient message limit, some said⟩])
      (shows : after.Shows cur.id (some (Store.merged cur ruling.next))
        (ruling.retry.map Prod.fst).toList []) :
      Handled policy limit cur message said
        (some (.recorded (ruling.wrap (Store.merged cur ruling.next)))) conv after
  | broken {time : Instant} {conv : Conversation} {after : Backend}
      (unruled : ruling? policy cur time (outcomeOf limit (some said)) = none)
      (times : conv.times = [time]) : Handled policy limit cur message said none conv after

theorem Handled.ruled {outcome : JobOutcome} {conv : Conversation} {after : Backend}
    (h : Handled policy limit cur message said (some outcome) conv after) :
    ∃ time ruling, ruling? policy cur time (outcomeOf limit (some said)) = some ruling ∧
      conv.times = [time] ∧
      conv.sends = [⟨.send cur.channel cur.recipient message limit, some said⟩] ∧
      after.Shows cur.id (some (Store.merged cur ruling.next))
        (ruling.retry.map Prod.fst).toList [] ∧
      outcome = .recorded (ruling.wrap (Store.merged cur ruling.next)) := by
  cases h with
  | recorded ruled times sends shows => exact ⟨_, _, ruled, times, sends, shows, rfl⟩

theorem claim_of_queued (queued : cur.status = .queued) :
    claim cur cur.attemptCount = pure (.ok (some cur)) := by
  simp [claim, queued, Status.isTerminal]

theorem attempt_amid {waiting : List Job} {held : List (Uuid × Job)}
    (emitter : emitters.lookup cur.channel = some provider)
    (rendered : Message.render cur.channel cur.payload = .ok message)
    (h : b.Shows cur.id (some cur) waiting held) :
    (attempt emitters limit cur).Amid cur.id (fun c => c.delivery = some said) told
      (fun result conv after => result = some (outcomeOf limit (some said)) ∧
        conv = told ++ [⟨.send cur.channel cur.recipient message limit, some said⟩] ∧
        after.Shows cur.id (some cur) waiting held) b := by
  simp only [attempt, emitter, rendered]
  apply amid_ask h
  intro before c step h given answered
  cases answered
  have given : c.delivery = some said := given
  simp only [given]
  cases said with
  | ok _ => exact onward_pure ⟨rfl, rfl, h⟩
  | error e => exact onward_log (onward_pure ⟨rfl, rfl, h⟩)

theorem process_amid (plain : policy.jitter = false) (queued : cur.status = .queued)
    (own : lease.job.key = (cur.id, cur.attemptCount))
    (counted : cur.attemptCount + 1 < Notification.attemptLimit)
    (emitter : emitters.lookup cur.channel = some provider)
    (rendered : Message.render cur.channel cur.payload = .ok message)
    (h : b.Shows cur.id (some cur) [] [(lease.token, lease.job)]) :
    (process policy emitters limit lease).Amid cur.id (fun c => c.delivery = some said) []
      (Handled policy limit cur message said) b := by
  have ownId : lease.job.notificationId = cur.id := (Prod.mk.inj own).1
  have ownAttempt : lease.job.attempt = cur.attemptCount := (Prod.mk.inj own).2
  simp only [process, ownId, ownAttempt]
  apply amid_get h
  intro b h
  show Amid _ _ _ _ (claim cur cur.attemptCount >>= _) b
  rw [claim_of_queued queued]
  apply (attempt_amid emitter rendered h).bind
  · intro conv b ⟨missing, _⟩
    cases missing
  · intro outcome conv b ⟨same, told, h⟩
    cases same
    subst told
    apply onward_note
    apply (Service.recordIn_amid plain queued own counted 4 h).bind
    · intro conv b settled
      cases settled with
      | broken unruled times => exact .broken unruled times
    · intro result conv b settled
      cases settled with
      | @ruled time ruling _ _ ruled times sends shows =>
          let stored := Store.merged cur ruling.next
          apply amid_ack shows
          intro isHeld b h
          have released : b.Shows cur.id (some stored) (ruling.retry.map Prod.fst).toList [] := by
            simpa using h
          have handled : Handled policy limit cur message said
              (some (.recorded (ruling.wrap stored)))
              (conv ++ [⟨.ack lease.token, .ok isHeld⟩]) b := by
            refine .recorded ruled ?_ ?_ released
            · rw [Conversation.times_append, times]
              rfl
            · rw [Conversation.sends_append, sends]
              rfl
          cases isHeld with
          | true => exact onward_pure handled
          | false => exact onward_log (onward_pure handled)

/-- All that the handling of a job asks for, the backends or a provider can answer. -/
theorem process_only (lease : Lease) : (process policy emitters limit lease).Only fun r =>
    r.isInward = true ∨ r.isSend = true := by
  have inward {α : Type} {p : Prog α} (h : Service.Inward p) :
      p.Only fun r => r.isInward = true ∨ r.isSend = true := h.mono fun _ => .inl
  have released (outcome : JobOutcome) : (ack lease >>= fun _ => pure outcome).Only fun r =>
      r.isInward = true ∨ r.isSend = true := (inward (ack_inward lease)).bind fun _ => trivial
  apply (inward (Service.get_inward lease.job.notificationId)).bind
  intro result
  cases result with
  | error e =>
      cases e with
      | notFound text => exact released .skipped
      | _ => trivial
  | ok n =>
      apply (inward (claim_inward n lease.job.attempt)).bind
      intro result
      match result with
      | .error e => trivial
      | .ok none => exact released .skipped
      | .ok (some claimed) =>
          have sending : (attempt emitters limit claimed).Only fun r =>
              r.isInward = true ∨ r.isSend = true := by
            unfold attempt
            split
            · trivial
            · split
              · trivial
              · refine ⟨.inr rfl, ?_⟩
                intro reply
                match reply with
                | some (.ok ()) | some (.error _) | none => trivial
          apply sending.bind
          intro outcome
          exact inward (reporting_inward lease outcome)

end Worker
end Courier
