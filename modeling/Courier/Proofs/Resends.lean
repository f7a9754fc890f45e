import Courier.Proofs.Handling
import Courier.Proofs.LateReports
import Courier.Proofs.Race
import Courier.Proofs.Succession

/-!
Messages that go out twice. Where calls are made one after another, the report of an attempt finds
the notification as the attempt has left it, and is never stale. Once its outcome has been recorded,
the notification does not wait for an attempt of that number again until it is reset. So the message
of an attempt goes out again only if the first worker could not record what came of it.
-/
namespace Courier

open Race (Beyond)

def Happening.sender? : Happening → Option Nat
  | .answered call (.send _ _ _ _) _ => some call
  | _ => none

theorem Happening.eq_of_sender? {e : Happening} {call : Nat} (sent : e.sender? = some call) :
    ∃ channel recipient message wait reply,
      e = .answered call (.send channel recipient message wait) reply := by
  unfold sender? at sent
  split at sent
  · cases sent
    exact ⟨_, _, _, _, _, rfl⟩
  · cases sent

theorem Happening.conversation_of_sender? {e : Happening} {call : Nat}
    (sent : e.sender? = some call) :
    ∃ channel recipient message wait reply,
      Past.conversation [e] call = [⟨.send channel recipient message wait, reply⟩] := by
  obtain ⟨channel, recipient, message, wait, reply, rfl⟩ := eq_of_sender? sent
  exact ⟨channel, recipient, message, wait, reply, by simp [Past.conversation, exchange?]⟩

theorem Service.Reported.beyond {policy : Retry.Policy} {cur next : Notification} {time : Instant}
    {outcome : Outcome} {wrap : Notification → Service.Recorded}
    (h : Service.Reported policy cur time outcome next wrap) (queued : cur.status = .queued) :
    Beyond cur.attemptCount next := by
  cases h with
  | sent | refused | exhausted => exact .inl rfl
  | retried left decided =>
      have more : cur.attemptCount < attemptsAfter policy cur := by
        rw [attemptsAfter_of_left left]
        exact Nat.lt_succ_self _
      exact .inr ⟨queued, more⟩

namespace Past

variable {policy : Retry.Policy} {past before between since after : Past} {id : Uuid}
  {x y m n : Notification} {call writer attempt : Nat} {c : Contract}

/-- An attempt that has been dealt with does not come up again but by a reset. -/
theorem Rewrote.beyond (h : past.Rewrote policy call x y) (dealt : Beyond attempt x)
    (unreset : y.status ≠ .pending) : Beyond attempt y := by
  cases h with
  | intro asker seen rewrite =>
      cases rewrite with
      | queue able pending backed =>
          rcases dealt with terminal | ⟨queued, _⟩
          · rw [pending] at terminal
            cases terminal
          · exact nomatch pending.symm.trans queued
      | report reports queued reported job => exact dealt.trans queued (reported.beyond queued)
      | reset able failed => exact absurd rfl unreset
      | restore able known wasFailed replaced same reset =>
          exact .inl (congrArg Status.isTerminal wasFailed)

theorem Accounted.rewrote (h : past.Accounted policy) {older newer : List Notification}
    (whole : past.versions id = older ++ x :: y :: newer) :
    ∃ call, past.Rewrote policy call x y := by
  have first : (past.versions id)[older.length]? = some x := by simp [whole]
  have second : (past.versions id)[older.length + 1]? = some y := by simp [whole]
  obtain ⟨writer, first⟩ := getElem?_versions.mp first
  obtain ⟨call, second⟩ := getElem?_versions.mp second
  exact ⟨call, (h id).rewrote first second⟩

theorem Accounted.beyond (h : past.Accounted policy) {older since rest : List Notification}
    (whole : past.versions id = older ++ x :: (since ++ rest)) (dealt : Beyond attempt x)
    (unreset : ∀ y ∈ since, y.status ≠ .pending) : ∀ y ∈ x :: since, Beyond attempt y := by
  induction since generalizing older x with
  | nil =>
      intro y mem
      obtain rfl := List.mem_singleton.mp mem
      exact dealt
  | cons z since ih =>
      obtain ⟨call, rewrote⟩ := h.rewrote whole
      have next := rewrote.beyond dealt (unreset z List.mem_cons_self)
      have whole : past.versions id = (older ++ [x]) ++ z :: (since ++ rest) := by simp [whole]
      have later := ih whole next fun y mem => unreset y (List.mem_cons_of_mem z mem)
      intro y mem
      rcases List.mem_cons.mp mem with rfl | mem
      · exact dealt
      · exact later y mem

/-- The notification was reset in what came after that past: a pending version was stored in the
place of a failed one. -/
inductive ResetIn (past : Past) (id : Uuid) : Past → Prop
  | intro {part rest : Past} {e : Happening} {call : Nat} {failed fresh : Notification}
      (replaced : latest (past ++ part) id = some failed) (wasFailed : failed.status = .failed)
      (wrote : e.write? = some (call, fresh)) (own : fresh.id = id)
      (pending : fresh.status = .pending) :
      ResetIn past id (part ++ e :: rest)

theorem ResetIn.wider {part wide rest : Past} (h : ResetIn (past ++ part) id between)
    (whole : wide = part ++ (between ++ rest)) : past.ResetIn id wide := by
  cases h with
  | @intro first later e call failed fresh replaced wasFailed wrote own pending =>
      have place : wide = (part ++ first) ++ e :: (later ++ rest) := by simp [whole]
      rw [List.append_assoc] at replaced
      rw [place]
      exact .intro replaced wasFailed wrote own pending

theorem ResetIn.stored (h : past.ResetIn id between) : ∃ n, n ∈ between.versions id := by
  cases h with
  | intro replaced wasFailed wrote own pending =>
      exact ⟨_, mem_versions.mpr ⟨_, List.mem_append_right _ List.mem_cons_self, _, wrote, own⟩⟩

theorem Rewrote.failed_of_pending (h : past.Rewrote policy call x y)
    (pending : y.status = .pending) :
    x.status = .failed := by
  cases h with
  | intro asker seen rewrite =>
      cases rewrite with
      | queue able _ backed => cases pending
      | report reports queued reported job =>
          exact absurd pending (reported.status_ne_pending queued)
      | reset able failed => exact failed
      | restore able known wasFailed replaced same reset =>
          exact nomatch wasFailed.symm.trans pending

/-- Without a reset, no pending version is stored of a notification that exists. -/
theorem Accounted.unreset (h : past.Accounted policy) (split : past = before ++ (between ++ after))
    (known : m ∈ before.versions id) (unreset : ¬before.ResetIn id between) :
    ∀ y ∈ between.versions id, y.status ≠ .pending := by
  intro y mem pending
  obtain ⟨e, happened, call, wrote, rfl⟩ := mem_versions.mp mem
  obtain ⟨part, rest, rfl⟩ := List.append_of_mem happened
  have earlier : m ∈ versions (before ++ part) y.id :=
    versions_subset (List.prefix_append _ _) known
  obtain ⟨x, replaced⟩ := Option.ne_none_iff_exists'.mp
    (mt List.getLast?_eq_none_iff.mp (List.ne_nil_of_mem earlier))
  obtain ⟨older, versions⟩ := List.getLast?_eq_some_iff.mp replaced
  have whole : past.versions y.id = older ++ x :: y :: Past.versions (rest ++ after) y.id := by
    have split : past = (before ++ part) ++ e :: (rest ++ after) := by simp [split]
    rw [split, versions_append, versions, versions_cons_self wrote]
    simp
  obtain ⟨call, rewrote⟩ := h.rewrote whole
  exact unreset (.intro replaced (rewrote.failed_of_pending pending) wrote rfl pending)

/-- Once a version has been stored that deals with an attempt, every version that a call is shown
deals with it, until a reset. -/
theorem Lawful.beyond_of_shown (h : past.Lawful (contract policy)) {e : Happening}
    {shown : (r : Request) × r.Reply} (wrote : e.write? = some (writer, x))
    (split : past = before ++ e :: (since ++ .answered call shown.1 shown.2 :: after))
    (dealt : Beyond attempt x)
    (unreset : ¬ResetIn (before ++ [e]) x.id (since ++ [.answered call shown.1 shown.2]))
    (shows : Conversation.Shown x.id n shown) : Beyond attempt n := by
  have accounted := accounted_of_lawful h
  have known : x ∈ versions (before ++ [e]) x.id := by
    rw [versions_snoc_self wrote]
    exact List.mem_append_right _ List.mem_cons_self
  have parts : past = (before ++ [e]) ++
      ((since ++ [.answered call shown.1 shown.2]) ++ after) := by
    simp [split]
  have unreset := accounted.unreset parts known unreset
  have whole : past.versions x.id = before.versions x.id ++
      x :: (versions (since ++ [.answered call shown.1 shown.2]) x.id ++ after.versions x.id) := by
    rw [split, List.append_cons since, versions_append, versions_cons_self wrote, versions_append]
  have split : past = (before ++ e :: since) ++ .answered call shown.1 shown.2 :: after := by
    simp [split]
  have last := h.latest_of_shown split shows
  rw [List.append_assoc, List.cons_append, latest, versions_append, versions_cons_self wrote,
    List.getLast?_append_cons] at last
  exact accounted.beyond whole dealt unreset n (List.mem_of_getLast? last)

/-- Among calls one after another, a call finds a notification as it was last shown it, if it has
stored nothing since. -/
theorem Lawful.found_as_shown (h : past.Lawful c) (inTurn : past.InTurn)
    {shown : (r : Request) × r.Reply}
    (split : past = before ++ .answered call shown.1 shown.2 ::
      (between ++ .answered call (.get id) (.ok (some m)) :: after))
    (shows : Conversation.Shown id n shown)
    (silent : Conversation.written (between.conversation call) = []) : m = n := by
  have still : between.versions id = [] :=
    versions_eq_nil (fun _ _ _ => inTurn.only_between split) silent id
  have first := h.latest_of_shown split shows
  have split : past = (before ++ [.answered call shown.1 shown.2] ++ between) ++
      .answered call (.get id) (.ok (some m)) :: after := by simp [split]
  have second := h.latest_of_shown split .read
  rw [latest_snoc_of_none rfl, latest, versions_append, still, List.append_nil] at second
  exact Option.some.inj (second.symm.trans first)

end Past

/-- The handling of a job may not be over yet, but it can be brought to its end. -/
theorem Worker.handles_of_course {policy : Retry.Policy} {emitters : Worker.Emitters}
    {limit : Duration} {lease : Lease} {q : Prog Worker.JobOutcome} {b b' : Backend}
    {conv : Conversation}
    (course : (Worker.process policy emitters limit lease).Goes .any b conv q b') :
    ∃ result more, Worker.Handles policy limit lease result (conv ++ more) := by
  have served (b : Backend) (r : Request) (kind : r.isInward = true ∨ r.isSend = true) :
      ∃ c step, True ∧ b.answer c r = some step := by
    obtain ⟨step, answered⟩ := b.answers_handling Pipeline.Sample.choice kind
    exact ⟨_, step, trivial, answered⟩
  have only := (Worker.process_only lease).goes course
  have handles := (Worker.process_handles emitters limit lease).goes course
  obtain ⟨more, q, b'', _, ended⟩ := only.ends (fun _ => trivial) served handles
  rcases ended with ⟨outcome, _, handled⟩ | ⟨_, handled⟩
  · exact ⟨_, more, handled⟩
  · exact ⟨_, more, handled⟩

namespace Pipeline

variable {d : Deployment} {allowed : Pipeline → Move → Prop} {clock : Instant} {s : Pipeline}
  {before between after : Past} {call first second : Nat} {lease lease' : Lease}
  {result : Worker.JobOutcome} {rest : Prog Worker.JobOutcome} {e e' : Happening}
  {channel : Channel} {recipient : String} {message : Message} {wait : Duration}
  {reply : Option (Except EmitError Unit)}

/-- Before a worker hands over a message it has been told that the notification waits for the
attempt, and what it says after that is part of the report of it. -/
theorem handled_of_reachable (reached : Reachable d allowed clock s)
    (working : s.calls[call]? = some ⟨.process lease, rest⟩)
    (split : s.past = before ++ .answered call (.send channel recipient message wait) reply ::
      after) :
    Worker.Claimed lease (before.conversation call) ∧ ∃ ending more,
      Worker.Ended d.policy lease (Worker.outcomeOf d.sendLimit reply) ending
        (after.conversation call ++ more) := by
  have said : s.past.conversation call = before.conversation call ++
      ⟨.send channel recipient message wait, reply⟩ :: after.conversation call := by
    rw [split, List.append_cons, Past.conversation_append, Past.conversation_snoc_self,
      List.append_assoc, List.singleton_append]
  obtain ⟨b, b', course⟩ := (courses_of_reachable reached).1 call _ working
  obtain ⟨ending, more, handled⟩ := Worker.handles_of_course course
  rw [said, List.append_assoc] at handled
  obtain ⟨claimed, ended⟩ := handled.of_split rfl
  exact ⟨claimed, ending, more, ended⟩

/-- A worker hands over a message when it was last told that the notification waits for the
attempt. -/
theorem claimed_of_reachable (reached : Reachable d allowed clock s)
    (working : s.calls[call]? = some ⟨.process lease, rest⟩) (split : s.past = before ++ e :: after)
    (sent : e.sender? = some call) : Worker.Claimed lease (before.conversation call) := by
  obtain ⟨channel, recipient, message, wait, reply, rfl⟩ := Happening.eq_of_sender? sent
  exact (handled_of_reachable reached working split).1

/-- Among calls one after another, a worker that has sent a message either retains the job and has
stored nothing, or has stored what deals with the attempt. -/
theorem recorded_or_retained (reached : Reachable d (fun s m => successive s m) clock s)
    (finished : s.calls[call]? = some ⟨.process lease, .done result⟩)
    (split : s.past = before ++ e :: after) (sent : e.sender? = some call) :
    result = .retained ∧ Conversation.written (Past.conversation after call) = [] ∨
      ∃ next stored, .answered call (.update next) (.ok stored) ∈ after ∧
        stored.id = lease.job.notificationId ∧ Beyond lease.job.attempt stored := by
  have lawful := (keeping_of_reachable (contract_kept d) reached).lawful
  have inTurn := (successive_of_reachable reached).inTurn
  obtain ⟨channel, recipient, message, wait, reply, sending⟩ :=
    Happening.conversation_of_sender? sent
  have last : (Past.conversation (before ++ [e]) call).getLast? =
      some ⟨.send channel recipient message wait, reply⟩ := by
    rw [Past.conversation_append, sending, List.getLast?_concat]
  have ended := ended_of_reachable reached finished (split.trans (List.append_cons _ _ _)) last
  cases ended with
  | retained unchanged => exact .inl ⟨rfl, unchanged⟩
  | recorded report =>
      cases report with
      | @applied cur next stored time wrap _ read queued current reported wrote made only =>
          obtain ⟨old, rfl⟩ := made
          have known : cur ∈ s.past.versions lease.job.notificationId := by
            apply lawful.known_of_get
            rw [split]
            exact List.mem_append_right _ (List.mem_cons_of_mem _ (Past.mem_conversation.mp read))
          refine .inr ⟨next, _, Past.mem_conversation.mp wrote, ?_, ?_⟩
          · exact reported.id_eq.trans (Past.id_of_mem_versions known)
          · rw [← current]
            exact reported.beyond queued
      | @stale m _ read settled unchanged =>
          -- nobody else is answered between the claim and the report, which finds the claimed
          -- version
          obtain ⟨n, ⟨told, x, said, shown⟩, waits⟩ :=
            claimed_of_reachable reached finished split sent
          obtain ⟨earlier, aside, rfl, quiet⟩ := Past.split_of_conversation said
          obtain ⟨till, rest, rfl⟩ := List.append_of_mem (Past.mem_conversation.mp read)
          have split : s.past = earlier ++ .answered call x.1 x.2 :: ((aside ++ ([e] ++ till)) ++
              .answered call (.get lease.job.notificationId) (.ok (some m)) :: rest) := by
            simp [split]
          have silent : Conversation.written (Past.conversation (aside ++ ([e] ++ till)) call) =
              [] := by
            rw [Past.conversation_append, quiet, Past.conversation_append, sending]
            exact Past.unwritten_of_append unchanged
          obtain rfl := lawful.found_as_shown inTurn split shown silent
          exact absurd waits settled

/-- Calls are made one after another, at whatever times and whatever fails. If two of them hand over
a message for the same attempt, and the notification was not reset in between, the first worker has
retained the job and has recorded nothing. -/
theorem resent_after_retained (reached : Reachable d (fun s m => successive s m) clock s)
    (split : s.past = before ++ e :: (between ++ e' :: after))
    (sent : e.sender? = some first) (resent : e'.sender? = some second) (different : first ≠ second)
    (finished : s.calls[first]? = some ⟨.process lease, .done result⟩)
    (working : s.calls[second]? = some ⟨.process lease', rest⟩)
    (same : lease'.job.key = lease.job.key)
    (unreset : ¬Past.ResetIn (before ++ [e]) lease.job.notificationId between) :
    result = .retained ∧ Conversation.written (Past.conversation between first) = [] := by
  have lawful := (keeping_of_reachable (contract_kept d) reached).lawful
  have inTurn := (successive_of_reachable reached).inTurn
  have less : first < second := by
    obtain ⟨_, _, _, _, _, rfl⟩ := Happening.eq_of_sender? sent
    obtain ⟨_, _, _, _, _, rfl⟩ := Happening.eq_of_sender? resent
    have upTo := inTurn.le split (List.mem_append_right _ List.mem_cons_self)
    exact Nat.lt_of_le_of_ne upTo different
  rcases recorded_or_retained reached finished split sent with
    ⟨rfl, unchanged⟩ | ⟨next, stored, wrote, own, dealt⟩
  · exact ⟨rfl, Past.unwritten_of_append unchanged⟩
  · exfalso
    obtain ⟨id, attempt⟩ := Prod.mk.inj same
    have split' : s.past = (before ++ e :: between) ++ e' :: after := by simp [split]
    obtain ⟨n, ⟨told, x, said, shown⟩, queued, current⟩ :=
      claimed_of_reachable reached working split' resent
    rw [id] at shown
    rw [attempt] at current
    -- what was stored after the first message has its place before the second claim
    obtain ⟨earlier, aside, claimed, _⟩ := Past.split_of_conversation said
    obtain ⟨part, later, recorded⟩ := List.append_of_mem wrote
    have write : s.past = (before ++ e :: part) ++
        .answered first (.update next) (.ok stored) :: later := by simp [split, recorded]
    have claim : s.past = earlier ++ .answered second x.1 x.2 :: (aside ++ e' :: after) := by
      simp [split', claimed]
    obtain ⟨since, rfl, rfl⟩ := inTurn.earlier less write claim
    have upTo : between = (part ++ [.answered first (.update next) (.ok stored)]) ++
        ((since ++ [.answered second x.1 x.2]) ++ aside) := by simpa using claimed
    rw [← own] at shown unreset
    have beyond : Beyond lease.job.attempt n := by
      refine lawful.beyond_of_shown rfl write dealt (fun reset => unreset ?_) shown
      have reset : Past.ResetIn
          ((before ++ [e]) ++ (part ++ [.answered first (.update next) (.ok stored)]))
          stored.id (since ++ [.answered second x.1 x.2]) := by simpa using reset
      exact reset.wider upTo
    rcases beyond with terminal | ⟨_, more⟩
    · exact absurd queued (Status.ne_queued terminal)
    · omega

namespace Sample

/-- A worker hands the message to the provider and then finds the store gone. Its lease runs out,
and a second worker sends the message again. -/
def resending : List Move :=
  creation ++
    [.lease (.ofSeconds 1) ⟨10#128⟩, .begin (.process (leaseUntil 10#128 1)), advance 1, advance 1,
      .setAvailable false true, advance 1, .setAvailable true true,
      .setClock (.ofSecond 2), .lease (.ofSeconds 60) ⟨11#128⟩,
      .begin (.process (leaseUntil 11#128 62)), advance 2, advance 2, advance 2,
      advance 2, advance 2,
      advance 2]

end Sample

/-- The first worker has retained its job before the second one sends the message again. -/
theorem resent_after_outage : ∃ s before between after e e' n,
    (initial Sample.clock).run? Sample.deployment successive Sample.resending = some s ∧
      s.past = before ++ e :: (between ++ e' :: after) ∧
      e.sender? = some 1 ∧ e'.sender? = some 2 ∧
      s.calls[1]? = some ⟨.process (Sample.leaseUntil 10#128 1), .done .retained⟩ ∧
      s.calls[2]? = some ⟨.process (Sample.leaseUntil 11#128 62), .done (.recorded (.sent n))⟩ ∧
      ¬Past.ResetIn (before ++ [e]) Sample.id between ∧
      Conversation.written (Past.conversation between 1) = [] := by
  have run : ∃ s e e' n,
      (initial Sample.clock).run? Sample.deployment successive Sample.resending = some s ∧
        s.past = s.past.take 12 ++ e :: ((s.past.drop 13).take 4 ++ e' :: s.past.drop 18) ∧
        e.sender? = some 1 ∧ e'.sender? = some 2 ∧
        s.calls[1]? = some ⟨.process (Sample.leaseUntil 10#128 1), .done .retained⟩ ∧
        s.calls[2]? = some ⟨.process (Sample.leaseUntil 11#128 62), .done (.recorded (.sent n))⟩ ∧
        Past.versions ((s.past.drop 13).take 4) Sample.id = [] :=
    ⟨_, _, _, _, rfl, rfl, rfl, rfl, rfl, rfl, rfl⟩
  obtain ⟨s, e, e', n, run, split, sent, resent, finished, finished', quiet⟩ := run
  have unreset : ¬Past.ResetIn (s.past.take 12 ++ [e]) Sample.id ((s.past.drop 13).take 4) := by
    intro reset
    obtain ⟨n, mem⟩ := reset.stored
    rw [quiet] at mem
    cases mem
  have different : 1 ≠ 2 := by decide
  obtain ⟨_, unwritten⟩ :=
    resent_after_retained (Reachable.initial.run run) split sent resent different
    finished finished' rfl unreset
  exact ⟨s, _, _, _, e, e', n, run, split, sent, resent, finished, finished', unreset, unwritten⟩

end Pipeline
end Courier
