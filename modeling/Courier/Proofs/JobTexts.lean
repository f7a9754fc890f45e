import Courier.Proofs.JsonTexts
import Courier.Proofs.Timestamps
import Courier.Remote.Queue

namespace Courier

namespace Job

open Json Text

variable {job other : Job}

theorem reads (counted : job.attempt < Notification.attemptLimit) :
    Reads decoder 1 job.toJson job := by
  have fits : job.attempt < significandLimit := Nat.lt_trans counted (by decide)
  have id := reads_textOf (Uuid.parse_render job.notificationId)
  have attempt := reads_naturalBelow counted fits
  have enqueuedAt := reads_textOf (Rfc3339.parse_render job.enqueuedAt)
  have visibleAt := reads_textOf (Rfc3339.parse_render job.visibleAt)
  let whole : Draft := ⟨some job.notificationId, some job.attempt, some job.enqueuedAt,
      some job.visibleAt⟩
  have finished : whole.finish = some job := rfl
  refine Fills.reads ?_ finished
  refine .cons rfl rfl (reads_of id _) ?_
  refine .cons rfl rfl (reads_of attempt _) ?_
  refine .cons rfl rfl (reads_of enqueuedAt _) ?_
  exact .cons rfl rfl (reads_of visibleAt _) .nil

theorem decode_encode (counted : job.attempt < Notification.attemptLimit) :
    decode job.encode = .ok job := (reads counted).decode (by decide)

theorem name_eq_iff : job.name = other.name ↔
    job.notificationId = other.notificationId ∧ job.attempt = other.attempt := by
  have parts (job : Job) : job.name.toList =
      job.notificationId.renderChars ++ ':' :: numeral job.attempt := by
    have text (s : String) : toString s = s := rfl
    simp [name, text, Uuid.render, numeral]
  constructor
  · intro same
    have same := congrArg String.toList same
    rw [parts, parts] at same
    have lengths : job.notificationId.renderChars.length =
        other.notificationId.renderChars.length := by
      rw [Uuid.length_renderChars, Uuid.length_renderChars]
    obtain ⟨ids, attempts⟩ := List.append_inj same lengths
    refine ⟨Uuid.render_injective (congrArg String.ofList ids), ?_⟩
    have read := congrArg decimalNumber? (List.cons.inj attempts).2
    rw [decimalNumber?_numeral, decimalNumber?_numeral] at read
    exact Option.some.inj read
  · rintro ⟨ids, attempts⟩
    rw [name, name, ids, attempts]

end Job

namespace Lease

open Json

variable {lease : Lease}

theorem reads (counted : lease.job.attempt < Notification.attemptLimit) :
    Reads decoder 2 lease.toJson lease := by
  have token := reads_textOf (Uuid.parse_render lease.token)
  have expiresAt := reads_textOf (Rfc3339.parse_render lease.expiresAt)
  let whole : Draft := ⟨some lease.job, some lease.token, some lease.expiresAt⟩
  have finished : whole.finish = some lease := rfl
  refine Fills.reads ?_ finished
  refine .cons rfl rfl (reads_of (Job.reads counted) _) ?_
  refine .cons rfl rfl (reads_of (token.deeper (by decide)) _) ?_
  exact .cons rfl rfl (reads_of (expiresAt.deeper (by decide)) _) .nil

end Lease

namespace Remote

variable {s : Session}

/-- A script is run at least once, and nothing is sent besides but the script itself. -/
theorem runScript_sent (keys : List String) (args : List Argument) (s : Session) :
    ∃ more, (runScript keys args s).2.sent = more ++ .run keys args :: s.sent ∧
      ∀ c ∈ more, c = .loadScript ∨ c = .run keys args := by
  have sends (c : Command) (s : Session) : (send c s).2.sent = c :: s.sent := rfl
  have first := sends (.run keys args) s
  simp only [runScript, bind, StateT.bind]
  generalize send (.run keys args) s = answer at first ⊢
  obtain ⟨reply, after⟩ := answer
  have once : ∃ more, after.sent = more ++ .run keys args :: s.sent ∧
      ∀ c ∈ more, c = .loadScript ∨ c = .run keys args := ⟨[], first, fun _ mem => nomatch mem⟩
  match reply with
  | .ok _ | .error .unexpected => exact once
  | .error (.refused reason) =>
      dsimp only
      split
      · have second := sends .loadScript after
        simp only [StateT.bind]
        generalize send .loadScript after = answer at second ⊢
        obtain ⟨reply, loaded⟩ := answer
        match reply with
        | .error e =>
            refine ⟨[.loadScript], ?_, by simp⟩
            show loaded.sent = _
            rw [second, first]
            rfl
        | .ok _ =>
            refine ⟨[.run keys args, .loadScript], ?_, by simp⟩
            show (send (.run keys args) loaded).2.sent = _
            rw [sends, second, first]
            rfl
      · exact once

namespace Queue

/-- The command that puts a job on the queue under that payload. -/
def pushing (q : Queue) (job : Job) (payload : String) : Command :=
  .run q.keys [.text job.name, .text payload, .integer job.visibleAt.epochMillis]

/-- What the server replies to one try at leasing a job. -/
def offer (q : Queue) (now expiresAt : Instant) (token : Uuid) : Talk (Except Failure Reply) :=
  runScript q.keys [.integer now.epochMillis, .integer expiresAt.epochMillis, .text token.render]

theorem enqueue_sent (q : Queue) (job : Job) (s : Session) :
    ∃ more, (q.enqueue job s).2.sent = more ++ q.pushing job job.encode :: s.sent ∧
      ∀ c ∈ more, c = .loadScript ∨ c = q.pushing job job.encode :=
  runScript_sent _ _ s

theorem tryLease_of_offer {q : Queue} {now expiresAt : Instant} {token : Uuid}
    {name payload : String} {job : Job}
    (offered : (q.offer now expiresAt token s).1 = .ok (.list [.text name, .text payload]))
    (read : Job.decode payload = .ok job) :
    (q.tryLease now expiresAt token s).1 = .ok (some ⟨job, token, expiresAt⟩) := by
  simp only [offer] at offered
  simp only [tryLease, bind, StateT.bind]
  generalize runScript _ _ s = answer at offered ⊢
  obtain ⟨reply, after⟩ := answer
  subst offered
  simp only [result, Reply.optional, Reply.pair, Reply.string, Except.bind,
    Except.mapError, Except.map, bind, read]
  rfl

/-- The payload that is sent for a job makes the job of every lease under which the server gives it
out again. A lease can be written and read back as well, and jobs have one name exactly if they are
for the same attempt. -/
theorem jobs_read_back (q : Queue) (lease : Lease)
    (counted : lease.job.attempt < Notification.attemptLimit) :
    (∀ s, ∃ payload more,
      (q.enqueue lease.job s).2.sent = more ++ q.pushing lease.job payload :: s.sent ∧
      (∀ c ∈ more, c = .loadScript ∨ c = q.pushing lease.job payload) ∧
      ∀ now t name,
        (q.offer now lease.expiresAt lease.token t).1 = .ok (.list [.text name, .text payload]) →
          (q.tryLease now lease.expiresAt lease.token t).1 = .ok (some lease)) ∧
      Json.decode Lease.decoder lease.toJson.render = .ok lease ∧
      ∀ a b : Job, a.name = b.name ↔ a.notificationId = b.notificationId ∧
        a.attempt = b.attempt := by
  refine ⟨fun s => ?_, (Lease.reads counted).decode (by decide), fun _ _ => Job.name_eq_iff⟩
  obtain ⟨more, sent, others⟩ := q.enqueue_sent lease.job s
  exact ⟨_, more, sent, others, fun _ _ _ offered =>
    tryLease_of_offer offered (Job.decode_encode counted)⟩

namespace Sample

def queue : Queue := ⟨"deliveries"⟩

/-- A lease of the last attempt that can be counted, made in the first second of all dates. The job
is visible from the end of the last one, which is a leap second. -/
def lease : Lease :=
  ⟨⟨.ofNat (2 ^ 128 - 1), 4294967295,
      ⟨Instant.firstSecond, 1, by decide, by decide, by decide, by decide⟩,
      ⟨Instant.lastSecond, 1999999999, by decide, by decide, by decide, by decide⟩⟩,
    .ofNat 0, .ofSecond 253402300800⟩

/-- A server that gives out that payload. -/
def session (payload : String) : Session := ⟨[.list [.text lease.job.name, .text payload]], []⟩

end Sample

/-- The job is read back from a payload with the first and the last of all dates in it. -/
theorem jobs_read_back_at_ends_of_time :
    Sample.lease.job.attempt < Notification.attemptLimit ∧
      Rfc3339.render Sample.lease.job.enqueuedAt = "-262143-01-01T00:00:00.000000001Z" ∧
      Rfc3339.render Sample.lease.job.visibleAt = "+262142-12-31T23:59:60.999999999Z" ∧
      Rfc3339.render Sample.lease.expiresAt = "+10000-01-01T00:00:00Z" ∧
      ∃ payload, (Sample.queue.enqueue Sample.lease.job ⟨[.integer 1], []⟩).2.sent =
          [Sample.queue.pushing Sample.lease.job payload] ∧
        (Sample.queue.tryLease (.ofSecond 0) Sample.lease.expiresAt Sample.lease.token
          (Sample.session payload)).1 = .ok (some Sample.lease) ∧
        Json.decode Lease.decoder Sample.lease.toJson.render = .ok Sample.lease := by
  have counted : Sample.lease.job.attempt < Notification.attemptLimit := by decide
  obtain ⟨leased, read, _⟩ := jobs_read_back Sample.queue Sample.lease counted
  obtain ⟨payload, more, sent, _, given⟩ := leased ⟨[.integer 1], []⟩
  have once : (Sample.queue.enqueue Sample.lease.job ⟨[.integer 1], []⟩).2.sent.length = 1 := rfl
  obtain rfl : more = [] := by
    rw [sent, List.length_append] at once
    exact List.eq_nil_of_length_eq_zero (by simpa using once)
  exact ⟨counted, rfl, rfl, rfl, payload, sent, given _ (Sample.session payload) _ rfl, read⟩

end Queue
end Remote
end Courier
