import Courier.Proofs.Claims
import Courier.Proofs.RecordInvariant
import Courier.Proofs.StrandedJobs

/-!
Reports that come late. A worker may hand a message to the provider, and report the outcome only
after the notification has failed for good and was reset. Such a report is stale and changes
nothing, unless the notification has come to wait for an attempt of the same number again: it is
then taken for the outcome of that attempt.
-/
namespace Courier

theorem Service.Reported.status_ne_pending {policy : Retry.Policy} {cur next : Notification}
    {time : Instant} {outcome : Outcome} {wrap : Notification → Service.Recorded}
    (h : Service.Reported policy cur time outcome next wrap) (queued : cur.status = .queued) :
    next.status ≠ .pending := by
  intro pending
  cases h with
  | retried left decided => exact nomatch queued.symm.trans pending
  | sent | refused | exhausted => cases pending

theorem Worker.Ended.status_ne_pending {policy : Retry.Policy} {lease : Lease} {outcome : Outcome}
    {result : Option Worker.JobOutcome} {conv : Conversation}
    (h : Worker.Ended policy lease outcome result conv) :
    ∀ n ∈ conv.written, n.status ≠ .pending := by
  intro n mem
  obtain ⟨old, cur, next, time, wrap, rfl, queued, reported⟩ := h.reported mem
  exact reported.status_ne_pending queued

namespace Past

variable {policy : Retry.Policy} {past : Past} {id : Uuid} {n : Notification} {c : Contract}

theorem Lawful.latest_of_shown {call : Nat} {x : (r : Request) × r.Reply} {before after : Past}
    (h : past.Lawful c) (split : past = before ++ .answered call x.1 x.2 :: after)
    (shown : Conversation.Shown id n x) :
    Past.latest (before ++ [.answered call x.1 x.2]) id = some n := by
  obtain ⟨_, _, _, truth⟩ := h.of_split split
  cases shown with
  | read =>
      rw [latest_snoc_of_none rfl]
      rcases truth with same | same
      · exact (Except.ok.inj same).symm
      · cases same
  | stored own =>
      subst own
      exact latest_snoc_self rfl

theorem Lawful.known_of_get {call : Nat} (h : past.Lawful c)
    (read : .answered call (.get id) (.ok (some n)) ∈ past) : n ∈ past.versions id := by
  obtain ⟨before, after, split⟩ := List.append_of_mem read
  have latest := h.latest_of_shown split .read
  rw [split, ← List.singleton_append, ← List.append_assoc]
  exact versions_subset (List.prefix_append _ _) (mem_versions_of_latest latest)

/-- A notification that waits for an attempt was pending that many failures ago, and nothing but
failures has been recorded since. -/
theorem Accounted.since_pending (h : past.Accounted policy) {k : Nat}
    (found : (past.versions id)[k]? = some n) (queued : n.status = .queued) :
    ∃ q x, (past.versions id)[q]? = some x ∧ x.status = .pending ∧ q + 1 + n.attemptCount = k ∧
      ∀ j y, q < j → j ≤ k → (past.versions id)[j]? = some y → y.status = .queued := by
  induction k generalizing n with
  | zero =>
      rcases h.made found with submitted | ⟨j, x, call, place, _⟩
      · cases submitted
        cases queued
      · omega
  | succ k ih =>
      have last {q : Nat} (before : ∀ j y, q < j → j ≤ k → (past.versions id)[j]? = some y →
          y.status = .queued) : ∀ j y, q < j → j ≤ k + 1 → (past.versions id)[j]? = some y →
          y.status = .queued := by
        intro j y after upto known
        rcases Nat.lt_or_eq_of_le upto with earlier | rfl
        · exact before j y after (by omega) known
        · rw [found] at known
          cases known
          exact queued
      rcases h.made found with submitted | ⟨j, x, call, place, earlier, rewrote⟩
      · cases submitted
        cases queued
      · obtain rfl : k = j := by omega
        cases rewrote with
        | intro asker seen rewrite =>
            cases rewrite with
            | queue able pending backed =>
                have none := h.attemptCount_of_pending (List.mem_of_getElem? earlier) pending
                refine ⟨k, x, earlier, pending, ?_, last ?_⟩
                · show k + 1 + x.attemptCount = k + 1
                  omega
                · intro j y after upto
                  omega
            | report reports waiting reported job =>
                cases reported with
                | retried left decided =>
                    obtain ⟨q, x', known, pending, place, failures⟩ := ih earlier waiting
                    refine ⟨q, x', known, pending, ?_, last failures⟩
                    show q + 1 + Service.attemptsAfter policy x = k + 1
                    rw [Service.attemptsAfter_of_left left]
                    omega
                | sent | refused | exhausted => cases queued
            | reset able failed => cases queued
            | restore able known wasFailed replaced same reset =>
                cases wasFailed.symm.trans queued

inductive LateReport (policy : Retry.Policy) (past : Past) (start : Nat) (id : Uuid) (attempt : Nat)
    (outcome : Outcome) : List Notification → Worker.JobOutcome → Prop
  | stale {n : Notification} (known : n ∈ past.versions id)
      (settled : ¬(n.status = .queued ∧ n.attemptCount = attempt)) :
      LateReport policy past start id attempt outcome [] (.recorded (.stale n))
  | applied {reset : Nat} {pending cur next : Notification} {time : Instant}
      {wrap : Notification → Service.Recorded} (later : start ≤ reset)
      (again : (past.versions id)[reset]? = some pending) (waits : pending.status = .pending)
      (failures : ∀ j y, reset < j → j ≤ reset + 1 + attempt →
        (past.versions id)[j]? = some y → y.status = .queued)
      (found : (past.versions id)[reset + 1 + attempt]? = some cur)
      (current : cur.attemptCount = attempt)
      (reported : Service.Reported policy cur time outcome next wrap)
      (stored : (past.versions id)[reset + 1 + attempt + 1]? = some (Store.merged cur next)) :
      LateReport policy past start id attempt outcome [Store.merged cur next]
        (.recorded (wrap (Store.merged cur next)))
  | unanswered : LateReport policy past start id attempt outcome [] .retained

end Past

namespace Pipeline

variable {d : Deployment} {allowed : Pipeline → Move → Prop} {clock : Instant} {s : Pipeline}
  {before after : Past} {call other : Nat} {lease : Lease} {reset fresh : Notification}
  {result : Worker.JobOutcome} {channel : Channel} {recipient : String} {message : Message}
  {wait : Duration} {reply : Option (Except EmitError Unit)}

theorem replaced_of_reachable (reached : Reachable d allowed clock s)
    {next stored cur : Notification} {caller : Nat}
    (split : s.past = before ++ .answered caller (.update next) (.ok stored) :: after)
    (known : cur ∈ s.past.versions next.id) (same : next.version = cur.version) :
    ∃ k, (before.versions next.id).length = k + 1 ∧ (s.past.versions next.id)[k]? = some cur ∧
      (s.past.versions next.id)[k + 1]? = some stored ∧ stored = Store.merged cur next := by
  obtain ⟨_, _, _, truth⟩ :=
    (keeping_of_reachable (contract_kept d) reached).lawful.of_split split
  obtain ⟨old, latest, current, rfl⟩ := truth stored rfl
  have versions : s.past.versions next.id = before.versions next.id ++
      Store.merged old next :: Past.versions after next.id := by
    have wrote : (Happening.answered caller (.update next) (.ok (Store.merged old next))).write? =
      some (caller, Store.merged old next) := rfl
    rw [split, Past.versions_append]
    exact congrArg _ (Past.versions_cons_self wrote)
  have recent : old ∈ s.past.versions next.id := by
    rw [versions]
    exact List.mem_append_left _ (Past.mem_versions_of_latest latest)
  obtain rfl : old = cur :=
    (accounted_of_reachable reached).eq_of_version_eq recent known (current.trans same)
  have last : (before.versions next.id)[(before.versions next.id).length - 1]? = some old := by
    rw [← List.getLast?_eq_getElem?]
    exact latest
  obtain ⟨bound, _⟩ := List.getElem?_eq_some_iff.mp last
  have length : (before.versions next.id).length =
      (before.versions next.id).length - 1 + 1 := by omega
  refine ⟨_, length, ?_, ?_, rfl⟩
  · rw [versions, List.getElem?_append_left bound]
    exact last
  · rw [versions, ← length, List.getElem?_append_right (Nat.le_refl _), Nat.sub_self]
    rfl

theorem ended_of_reachable (reached : Reachable d allowed clock s)
    (ended : s.calls[call]? = some ⟨.process lease, .done result⟩)
    (split : s.past = before ++ after)
    (sent : (before.conversation call).getLast? =
      some ⟨.send channel recipient message wait, reply⟩) :
    Worker.Ended d.policy lease (Worker.outcomeOf d.sendLimit reply) (some result)
      (after.conversation call) := by
  obtain ⟨b, b', course⟩ := (courses_of_reachable reached).1 call _ ended
  have handles : Worker.Handles d.policy d.sendLimit lease (some result)
      (s.past.conversation call ++ []) :=
    (Worker.process_handles d.emitters d.sendLimit lease).goes course
  obtain ⟨prior, spoken⟩ := List.getLast?_eq_some_iff.mp sent
  have whole : s.past.conversation call ++ [] =
      prior ++ ⟨.send channel recipient message wait, reply⟩ :: after.conversation call := by
    rw [List.append_nil, split, Past.conversation_append, spoken, List.append_assoc,
      List.singleton_append]
  exact (handles.of_split whole).2

/-- A worker that was answered by the provider, and then overtaken by a reset of the notification,
reports an outcome that is stale, or is applied to the same attempt after the reset, or is not
recorded at all. -/
theorem late_report (reached : Reachable d allowed clock s)
    (ended : s.calls[call]? = some ⟨.process lease, .done result⟩)
    (sent : (before.conversation call).getLast? =
      some ⟨.send channel recipient message wait, reply⟩)
    (split : s.past = before ++ .answered other (.update reset) (.ok fresh) :: after)
    (own : fresh.id = lease.job.notificationId) (pending : fresh.status = .pending) :
    s.past.LateReport d.policy (before.versions lease.job.notificationId).length
      lease.job.notificationId lease.job.attempt (Worker.outcomeOf d.sendLimit reply)
      (Conversation.written (after.conversation call)) result := by
  have lawful := (keeping_of_reachable (contract_kept d) reached).lawful
  have accounted := accounted_of_reachable reached
  have ended := ended_of_reachable reached ended split sent
  -- the reset is no part of the report, which leaves nothing pending
  have another : other ≠ call := by
    rintro rfl
    have said : ⟨.update reset, .ok fresh⟩ ∈
        Past.conversation (.answered other (.update reset) (.ok fresh) :: after) other :=
      Past.mem_conversation.mpr List.mem_cons_self
    exact ended.status_ne_pending fresh (Conversation.mem_written said) pending
  have aside : Past.conversation (.answered other (.update reset) (.ok fresh) :: after) call =
      after.conversation call := by
    simp [Past.conversation, Happening.exchange?, another]
  rw [aside] at ended
  cases ended with
  | retained unchanged =>
      rw [unchanged]
      exact .unanswered
  | @recorded r _ report =>
      have kept {x : (r : Request) × r.Reply} (mem : x ∈ after.conversation call) :
          .answered call x.1 x.2 ∈ s.past := by
        rw [split]
        exact List.mem_append_right _ (List.mem_cons_of_mem _ (Past.mem_conversation.mp mem))
      cases report with
      | stale read settled unchanged =>
          rw [unchanged]
          exact .stale (lawful.known_of_get (kept read)) settled
      | @applied cur next stored time wrap _ read queued current reported wrote made only =>
          have known := lawful.known_of_get (kept read)
          have id : next.id = lease.job.notificationId :=
            reported.id_eq.trans (Past.id_of_mem_versions known)
          rw [← id] at known own ⊢
          -- the reset has its place in the history, and the report was written after it
          have renewed (rest : Past) : Past.versions
              (before ++ .answered other (.update reset) (.ok fresh) :: rest) next.id =
                before.versions next.id ++ fresh :: Past.versions rest next.id := by
            rw [Past.versions_append, ← own]
            exact congrArg _ (Past.versions_cons_self rfl)
          have resetAt : (s.past.versions next.id)[(before.versions next.id).length]? =
              some fresh := by
            rw [split, renewed, List.getElem?_append_right (Nat.le_refl _), Nat.sub_self]
            rfl
          obtain ⟨since, rest, later⟩ := List.append_of_mem (Past.mem_conversation.mp wrote)
          rw [later, ← List.cons_append, ← List.append_assoc] at split
          obtain ⟨k, length, found, place, rfl⟩ :=
            replaced_of_reachable reached split known reported.version_eq
          have after : (before.versions next.id).length ≤ k := by
            rw [renewed, List.length_append, List.length_cons] at length
            omega
          obtain ⟨q, x, again, waits, rfl, failures⟩ := accounted.since_pending found queued
          rw [only]
          rw [current] at found place failures after
          refine .applied ?_ again waits failures found current reported place
          apply Nat.le_of_not_lt
          intro earlier
          have waiting := failures _ fresh earlier after resetAt
          cases pending.symm.trans waiting

namespace Sample

def mail : Message := ⟨some "x", "x", none⟩

/-- A worker hands the message to the provider, and its lease runs out. A second worker gets the
job, and the attempt fails for good. The notification is reset. -/
def renewed : List Move :=
  creation ++
    [.lease (.ofSeconds 1) ⟨10#128⟩, .begin (.process (leaseUntil 10#128 1)), advance 1, advance 1,
      .setClock (.ofSecond 2), .lease (.ofSeconds 60) ⟨11#128⟩,
      .begin (.process (leaseUntil 11#128 62)), advance 2,
      .advance 2 { choice with delivery := some (.error (.invalidRecipient "gone")) },
      advance 2, advance 2, advance 2, advance 2,
      .begin (.resetFailed id), advance 3, advance 3, advance 3]

/-- The first worker reports before the notification is queued again. -/
def early : List Move := renewed ++ [advance 1, advance 1]

/-- The first worker reports when the notification waits for its first attempt again. -/
def crossing : List Move :=
  renewed ++ [advance 3, advance 3, advance 3, advance 3, advance 3, advance 1,
    advance 1, advance 1, advance 1]

end Sample

/-- The report comes while the notification is pending, and is stale. -/
theorem late_report_before_queued : ∃ s n before after reset fresh,
    (initial Sample.clock).run? Sample.deployment delivery Sample.early = some s ∧
      s.calls[1]? = some ⟨.process (Sample.leaseUntil 10#128 1), .done (.recorded (.stale n))⟩ ∧
      (Past.conversation before 1).getLast? =
        some ⟨.send .email "a@example.com" Sample.mail (.ofSeconds 30), some (.ok ())⟩ ∧
      s.past = before ++ .answered 3 (.update reset) (.ok fresh) :: after ∧
      fresh.id = Sample.id ∧ fresh.status = .pending ∧
      s.past.LateReport Sample.deployment.policy (Past.versions before Sample.id).length Sample.id 0
        .success (Conversation.written (Past.conversation after 1)) (.recorded (.stale n)) := by
  have run : ∃ s n reset fresh,
      (initial Sample.clock).run? Sample.deployment delivery Sample.early = some s ∧
        s.calls[1]? = some ⟨.process (Sample.leaseUntil 10#128 1), .done (.recorded (.stale n))⟩ ∧
        (Past.conversation (s.past.take 24) 1).getLast? =
          some ⟨.send .email "a@example.com" Sample.mail (.ofSeconds 30), some (.ok ())⟩ ∧
        s.past = s.past.take 24 ++ .answered 3 (.update reset) (.ok fresh) :: s.past.drop 25 ∧
        fresh.id = Sample.id ∧ fresh.status = .pending :=
    ⟨_, _, _, _, rfl, rfl, rfl, rfl, rfl, rfl⟩
  obtain ⟨s, n, reset, fresh, run, ended, sent, split, own, pending⟩ := run
  exact ⟨s, n, _, _, reset, fresh, run, ended, sent, split, own, pending,
    late_report (Reachable.initial.run run) ended sent split own pending⟩

/-- A report of an attempt that was made before a reset may be taken for the outcome of an attempt
after it. -/
theorem report_crosses_reset : ∃ s n before after reset fresh,
    (initial Sample.clock).run? Sample.deployment delivery Sample.crossing = some s ∧
      Reachable Sample.deployment (fun s m => delivery s m) Sample.clock s ∧
      (Past.conversation before 1).getLast? =
        some ⟨.send .email "a@example.com" Sample.mail (.ofSeconds 30), some (.ok ())⟩ ∧
      s.past = before ++ .answered 3 (.update reset) (.ok fresh) :: after ∧
      reset.status = .pending ∧
      (Past.latest before Sample.id).map Notification.status = some .failed ∧
      s.calls[1]? = some ⟨.process (Sample.leaseUntil 10#128 1), .done (.recorded (.sent n))⟩ ∧
      Conversation.written (Past.conversation after 1) = [n] ∧ n.attemptCount = 1 ∧
      s.backend.store.find? Sample.id = some n := by
  have run : ∃ s n reset fresh,
      (initial Sample.clock).run? Sample.deployment delivery Sample.crossing = some s ∧
        (Past.conversation (s.past.take 24) 1).getLast? =
          some ⟨.send .email "a@example.com" Sample.mail (.ofSeconds 30), some (.ok ())⟩ ∧
        s.past = s.past.take 24 ++ .answered 3 (.update reset) (.ok fresh) :: s.past.drop 25 ∧
        reset.status = .pending ∧
        (Past.latest (s.past.take 24) Sample.id).map Notification.status = some .failed ∧
        s.calls[1]? = some ⟨.process (Sample.leaseUntil 10#128 1), .done (.recorded (.sent n))⟩ ∧
        Conversation.written (Past.conversation (s.past.drop 25) 1) = [n] ∧ n.attemptCount = 1 ∧
        s.backend.store.find? Sample.id = some n :=
    ⟨_, _, _, _, rfl, rfl, rfl, rfl, rfl, rfl, rfl, rfl, rfl⟩
  obtain ⟨s, n, reset, fresh, run, crossed⟩ := run
  obtain ⟨sent, split, crossed⟩ := crossed
  exact ⟨s, n, _, _, reset, fresh, run, Reachable.initial.run run, sent, split, crossed⟩

end Pipeline
end Courier
