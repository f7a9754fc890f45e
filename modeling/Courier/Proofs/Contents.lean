import Courier.Proofs.Handling
import Courier.Proofs.Serving
import Courier.Proofs.StrandedJobs
import Courier.Proofs.Transitions

/-!
The content of a notification on its way from the check to the provider. The check and the making of
messages ask for the same fields, and no write changes the content. So whatever happens in between,
a message can be made of every record that is stored, and it goes to a recipient that has been
checked.
-/
namespace Courier

open Prog

namespace Message

variable {channel : Channel} {payload : Json} {name s : String}

theorem hasText_of_required (found : required payload name = .ok s) :
    Payload.hasText payload name = true := by
  unfold required at found
  split at found
  · rename_i text filled
    unfold field? at filled
    unfold Payload.hasText
    split at filled
    · cases filled
    · rename_i text given
      rw [given]
      split at filled
      · cases filled
      · rename_i more
        simpa using more
  · cases found

theorem ok_of_bind_ok {ε α β : Type} {x : Except ε α} {f : α → Except ε β} {b : β}
    (h : x >>= f = .ok b) :
    ∃ a, x = .ok a := by
  cases x with
  | error e => cases h
  | ok a => exact ⟨a, rfl⟩

theorem required_of_render {members : List (String × Json)} {message : Message}
    (made : render channel (.object members) = .ok message)
    (mem : name ∈ Payload.requiredFields channel) :
    ∃ s, required (.object members) name = .ok s := by
  cases channel with
  | email | sms | push =>
      obtain rfl := List.mem_singleton.mp mem
      exact ok_of_bind_ok made

/-- A message can be made of exactly the payloads that pass the check. -/
theorem render_iff_valid (channel : Channel) (payload : Json) :
    (∃ message, render channel payload = .ok message) ↔
    Payload.validate channel payload = .ok () := by
  refine ⟨?_, render_of_valid⟩
  rintro ⟨message, made⟩
  cases payload with
  | object members =>
      have complete : (Payload.requiredFields channel).filter
          (fun name => !Payload.hasText (.object members) name) = [] := by
        apply List.filter_eq_nil_iff.mpr
        intro name mem
        obtain ⟨s, found⟩ := required_of_render made mem
        simp [hasText_of_required found]
      simp only [Payload.validate, complete]
  | _ => cases made

end Message

theorem begins_append {start : String} {c : Char} (begins : start.toList.head? = some c)
    (rest : String) :
    (start ++ rest).toList.head? = some c := by
  rw [String.toList_append, List.head?_append, begins, Option.some_or]

theorem ne_renderFailure {message : String} {c : Char} (begins : message.toList.head? = some c)
    (other : c ≠ 'R') (text : String) : message ≠ "Render failed: " ++ text := by
  have starts : ("Render failed: " ++ text).toList.head? = some 'R' :=
    begins_append (by decide) text
  rintro rfl
  rw [starts] at begins
  exact other (Option.some.inj begins).symm

/-- A recipient and a payload that have passed the checks for the channel. -/
structure Notification.Checked (n : Notification) : Prop where
  recipient : Recipient.validate n.channel n.recipient = .ok ()
  payload : Payload.validate n.channel n.payload = .ok ()

/-- The notification has failed because no message could be made of it. -/
def Notification.BlamesRendering (n : Notification) : Prop :=
  n.status = .failed ∧ ∃ text, n.errorMessage = some ("Render failed: " ++ text)

def Outcome.BlamesRendering (o : Outcome) : Prop :=
  ∃ text, o = .permanent ("Render failed: " ++ text)

/-- The request hands over no message, and marks no notification as failed for want of one. -/
def Request.Blameless : Request → Prop
  | .send _ _ _ _ => False
  | .update next => ¬next.BlamesRendering
  | _ => True

namespace Past

variable {policy : Retry.Policy} {past now : Past} {n : Notification} {id : Uuid}

theorem Accounted.checked (h : past.Accounted policy) (known : n ∈ past.versions id) :
    n.Checked := by
  obtain ⟨i, found⟩ := List.getElem?_of_mem known
  clear known
  induction i generalizing n with
  | zero =>
      rcases h.made found with submitted | ⟨j, x, call, place, _⟩
      · cases submitted with
        | create recipient payload read => exact ⟨recipient, payload⟩
      · omega
  | succ i ih =>
      rcases h.made found with submitted | ⟨j, x, call, place, first, rewrote⟩
      · cases submitted with
        | create recipient payload read => exact ⟨recipient, payload⟩
      · obtain rfl := Nat.succ.inj place
        obtain ⟨recipient, payload⟩ := ih first
        have same := rewrote.sameContent
        rw [same.channel, same.recipient] at recipient
        rw [same.channel, same.payload] at payload
        exact ⟨recipient, payload⟩

/-- A message can be made of every version. -/
def Renders (past : Past) : Prop :=
  ∀ id, ∀ n ∈ past.versions id, ∃ message, Message.render n.channel n.payload = .ok message

theorem Renders.until (h : now.Renders) (grown : past <+: now) : past.Renders :=
  fun id n known => h id n (versions_subset grown known)

theorem Accounted.renders (h : past.Accounted policy) : past.Renders :=
  fun _ _ known => Message.render_of_valid (h.checked known).payload

end Past

/-- What is handed to a provider is the message of a version of the notification that the lease is
for, for the recipient of that version. No worker marks a notification as failed for want of a
message. -/
def conveyance (op : Operation) (past : Past) : Request → Prop
  | .send channel recipient message _ => ∃ lease, op = .process lease ∧
      ∃ n ∈ past.versions lease.job.notificationId, n.channel = channel ∧ n.recipient = recipient ∧
        Message.render channel n.payload = .ok message
  | .update next => (∃ lease, op = .process lease) → past.Renders → ¬next.BlamesRendering
  | _ => True

def conveying : Contract := ⟨fun op _ => conveyance op, fun _ _ _ _ => True⟩

theorem Request.Blameless.conveyance {r : Request} (blameless : r.Blameless) (op : Operation)
    (past : Past) :
    conveyance op past r := by
  cases r with
  | send => cases blameless
  | update next => exact fun _ _ => blameless
  | _ => trivial

namespace Prog

variable {α : Type} {warrant : Past → Request → Prop} {kind : Request → Prop} {me : Nat}
  {past : Past} {p : Prog α} {post : α → Past → Prop}

/-- A program that keeps to its warrants keeps to others as well, if they are given for all that it
asks for. -/
theorem Keeps.of_only {warrant' : Past → Request → Prop} (h : p.Keeps warrant me post past)
    (only : p.Only kind) (granted : ∀ now : Past, past <+: now → ∀ r, kind r → warrant' now r) :
    p.Keeps warrant' me post past := by
  induction p generalizing past with
  | done a => exact h
  | abort => trivial
  | log e rest ih => exact ih h only granted
  | ask r next ih =>
      intro now grown
      refine ⟨granted now grown r only.1, fun reply truth => ?_⟩
      refine ih reply ((h now grown).2 reply truth) (only.2 reply) ?_
      intro future later
      exact granted future (grown.trans ((List.prefix_append _ _).trans later))

end Prog

namespace Service

variable {op : Operation} {me : Nat} {past : Past} {id : Uuid} {policy : Retry.Policy}
  {outcome : Outcome}

theorem get_known (id : Uuid) : (get id).Keeps (conveyance op) me
    (fun result now => ∀ n, result = .ok n → n ∈ now.versions id) past := by
  intro now grown
  refine ⟨trivial, fun reply truth => ?_⟩
  rcases truth with rfl | rfl
  · cases found : now.latest id with
    | none => exact fun _ _ _ same => nomatch same
    | some n =>
        intro future later m same
        cases same
        exact Past.versions_subset ((List.prefix_append _ _).trans later)
          (Past.mem_versions_of_latest found)
  · exact fun _ _ _ same => nomatch same

theorem markQueuedIn_known (tries : Nat) (id : Uuid) :
    (markQueuedIn tries id).Keeps (conveyance op) me
    (fun result now => ∀ n, result = .ok n → n ∈ now.versions id) past := by
  induction tries generalizing past with
  | zero => exact keeps_pure fun _ _ _ same => nomatch same
  | succ tries ih =>
      refine Keeps.bind (get_known id) fun result now grown known => ?_
      cases result with
      | error e => exact keeps_pure fun _ _ _ same => nomatch same
      | ok current =>
          have known := known current rfl
          obtain rfl := Past.id_of_mem_versions known
          show Keeps _ _ _ (if current.status = .pending then _ else _) now
          split
          · intro now _
            refine ⟨trivial, fun time _ now _ => ?_⟩
            refine ⟨fun _ _ blamed => (nomatch blamed.1), fun reply truth => ?_⟩
            cases reply with
            | ok stored =>
                intro future later n same
                cases same
                obtain ⟨old, _, _, made⟩ := truth stored rfl
                have own : stored.id = current.id := by rw [made]; rfl
                refine Past.versions_subset later ?_
                rw [← own, Past.versions_snoc_self rfl]
                exact List.mem_append_right _ List.mem_cons_self
            | error e =>
                show Keeps _ _ _ (if e.isConflict = true then _ else _) _
                split
                · exact ih
                · exact keeps_pure fun _ _ _ same => nomatch same
          · refine keeps_pure fun future later n same => ?_
            cases same
            exact Past.versions_subset later known

theorem Reported.blameless {cur next : Notification} {time : Instant}
    {wrap : Notification → Recorded} (h : Reported policy cur time outcome next wrap)
    (queued : cur.status = .queued) (blameless : ¬outcome.BlamesRendering) :
    ¬next.BlamesRendering := by
  rintro ⟨failed, text, message⟩
  cases h with
  | sent => cases failed
  | refused => exact blameless ⟨text, congrArg Outcome.permanent (Option.some.inj message)⟩
  | @exhausted tried spent =>
      have begins : (s!"Failed after {attemptsAfter policy cur} attempts: {tried}").toList.head? =
          some 'F' :=
        begins_append (begins_append (begins_append (by decide) _) _) _
      exact ne_renderFailure begins (by decide) text (Option.some.inj message)
  | retried left decided => exact nomatch queued.symm.trans failed

theorem applied_only (policy : Retry.Policy) (cur : Notification) (outcome : Outcome)
    (time : Instant) :
    (applied policy cur outcome time).Only Request.Blameless := by
  unfold applied
  cases outcome with
  | success => trivial
  | permanent message => trivial
  | transient message =>
      have drawn {α : Type} {bound : Nat} {f : Nat → Prog α}
          (h : ∀ extra, (f extra).Only Request.Blameless) :
          (if bound = 0 then pure 0 >>= f else draw bound >>= f).Only Request.Blameless := by
        split
        · exact h 0
        · exact ⟨trivial, h⟩
      apply drawn
      intro extra
      apply only_orAbort
      intro decision
      cases decision with
      | giveUp => trivial
      | retryAt delay retryAt =>
          refine ⟨trivial, fun reply => ?_⟩
          match reply with
          | .error _ | .ok _ => trivial

theorem recordIn_keeps {id : Uuid} {attempt : Nat} (blameless : ¬outcome.BlamesRendering)
    (tries : Nat) :
    (recordIn policy id attempt outcome tries).Keeps (conveyance op) me (fun _ _ => True) past := by
  induction tries generalizing past with
  | zero => exact keeps_pure fun _ _ => trivial
  | succ tries ih =>
      refine Keeps.bind (get_known id) fun result now _ _ => ?_
      cases result with
      | error e => exact keeps_pure fun _ _ => trivial
      | ok current =>
          show Keeps _ _ _ (if current.status = .queued ∧ current.attemptCount = attempt then _
              else _) now
          split
          · rename_i waiting
            intro now _
            refine ⟨trivial, fun time _ => ?_⟩
            show Keeps _ _ _ (if _ then abort else _) _
            split
            · trivial
            · refine Keeps.bind ((applied_sound policy op me current outcome time _).of_only
                (applied_only policy current outcome time)
                fun now _ r harmless => harmless.conveyance op now) fun result now _ made => ?_
              match result with
              | .error e => exact keeps_pure fun _ _ => trivial
              | .ok (next, wrap) =>
                  obtain ⟨reported, _⟩ := made next wrap rfl
                  have spared := reported.blameless waiting.1 blameless
                  intro now _
                  refine ⟨fun _ _ => spared, fun reply _ => ?_⟩
                  cases reply with
                  | ok stored => exact keeps_noteAll (keeps_pure fun _ _ => trivial)
                  | error e =>
                      show Keeps _ _ _ (if e.isConflict = true then _ else _) _
                      split
                      · exact ih
                      · exact keeps_pure fun _ _ => trivial
          · exact keeps_note (keeps_pure fun _ _ => trivial)

end Service

namespace Worker

variable {op : Operation} {me : Nat} {past : Past} {n : Notification} {policy : Retry.Policy}
  {emitters : Emitters} {limit : Duration} {outcome : Outcome} {lease : Lease}

theorem claim_known (known : n ∈ past.versions n.id) (attempt : Nat) :
    (claim n attempt).Keeps (conveyance op) me
      (fun result now => ∀ m, result = .ok (some m) → m ∈ now.versions n.id) past := by
  unfold claim
  split
  · exact keeps_note (keeps_pure fun _ _ _ same => nomatch same)
  · split
    · refine Keeps.bind (Service.markQueuedIn_known Service.writeTries n.id)
        fun result now grown marked => ?_
      cases result with
      | error e => exact keeps_pure fun _ _ _ same => nomatch same
      | ok queued =>
          show Keeps _ _ _ (if queued.status = .queued ∧ queued.attemptCount = attempt then _
              else _) now
          split
          · refine keeps_pure fun future later m same => ?_
            cases same
            exact Past.versions_subset later (marked queued rfl)
          · exact keeps_pure fun _ _ _ same => nomatch same
    · refine keeps_pure fun future later m same => ?_
      cases same
      exact Past.versions_subset later known

theorem outcomeOf_blameless (limit : Duration) (reply : Option (Except EmitError Unit)) :
    ¬(outcomeOf limit reply).BlamesRendering := by
  rintro ⟨text, same⟩
  match reply with
  | none => cases same
  | some (.ok ()) => cases same
  | some (.error e) =>
      cases e with
      | invalidRecipient message =>
          have begins : (EmitError.invalidRecipient message).display.toList.head? = some 'i' :=
            begins_append (by decide) message
          exact ne_renderFailure begins (by decide) text (Outcome.permanent.inj same)
      | http status message =>
          have begins : (EmitError.http status message).display.toList.head? = some 'p' :=
            begins_append (begins_append (begins_append (by decide) _) _) _
          simp only [outcomeOf, EmitError.classify] at same
          split at same
          · exact ne_renderFailure begins (by decide) text (Outcome.permanent.inj same)
          · cases same
      | _ => cases same

theorem missingEmitter_blameless (channel : Channel) :
    ¬(Outcome.permanent s!"No emitter configured for channel {channel.name}").BlamesRendering := by
  rintro ⟨text, same⟩
  have begins : (s!"No emitter configured for channel {channel.name}").toList.head? = some 'N' :=
    begins_append (by decide) _
  exact ne_renderFailure begins (by decide) text (Outcome.permanent.inj same)

/-- An attempt on a notification that a message can be made of does not fail for want of one,
whatever goes on meanwhile and whatever the provider answers. -/
theorem attempt_blameless {w : Surroundings} {b : Backend} {message : Message}
    (rendered : Message.render n.channel n.payload = .ok message) :
    (attempt emitters limit n).Meets w (fun _ => True)
      (fun result _ _ => ∀ outcome, result = some outcome → ¬outcome.BlamesRendering) b := by
  unfold attempt
  split
  · rintro outcome ⟨⟩
    exact missingEmitter_blameless n.channel
  · rw [rendered]
    intro before c step _ _ _
    refine ⟨trivial, ?_⟩
    have blameless := outcomeOf_blameless limit step.reply
    match answered : step.reply with
    | some (.ok ()) | some (.error e) | none =>
        rw [answered] at blameless
        rintro outcome ⟨⟩
        exact blameless

/-- Of a payload that was never checked there may be no message. -/
example : ∃ outcome, attempt [(.email, "mail")] limit
    (.create (Uuid.ofNat 1) ⟨.email, "a@example.com", .null⟩ (.ofSecond 0)) = pure outcome ∧
      outcome.BlamesRendering := ⟨_, rfl, _, rfl⟩

/-- A worker hands over the message of a version that it was given, and if one can be made of it,
does not fail for want of one. -/
theorem attempt_conveys (known : n ∈ past.versions lease.job.notificationId) :
    (attempt emitters limit n).Keeps (conveyance (.process lease)) me
      (fun outcome now => now.Renders → ¬outcome.BlamesRendering) past := by
  unfold attempt
  split
  · exact keeps_pure fun _ _ _ => missingEmitter_blameless n.channel
  · split
    · rename_i e unrendered
      refine keeps_pure fun now grown renders => ?_
      obtain ⟨message, made⟩ := renders.until grown _ n known
      rw [unrendered] at made
      cases made
    · rename_i message made
      intro now grown
      refine ⟨⟨lease, rfl, n, Past.versions_subset grown known, rfl, rfl, made⟩, fun reply _ => ?_⟩
      have blameless := outcomeOf_blameless limit reply
      match reply with
      | some (.ok ()) => exact keeps_pure fun _ _ _ => blameless
      | some (.error e) => exact keeps_note (keeps_pure fun _ _ _ => blameless)
      | none => exact keeps_pure fun _ _ _ => blameless

theorem ack_keeps (lease : Lease) :
    (ack lease).Keeps (conveyance op) me (fun _ _ => True) past := by
  intro now _
  refine ⟨trivial, fun reply _ => ?_⟩
  match reply with
  | .ok true | .ok false | .error _ => exact fun _ _ => trivial

theorem reporting_keeps (blameless : past.Renders → ¬outcome.BlamesRendering) :
    (reporting policy lease outcome).Keeps (conveyance (.process lease)) me
      (fun _ _ => True) past := by
  have recorded : (Service.record policy lease.job.notificationId lease.job.attempt outcome).Keeps
      (conveyance (.process lease)) me (fun _ _ => True) past := by
    by_cases renders : past.Renders
    · exact Service.recordIn_keeps (blameless renders) Service.writeTries
    · -- then messages cannot be made of all versions later on either
      have reports : (Operation.process lease).Reports lease.job.notificationId
          lease.job.attempt outcome := rfl
      have sound : Sound policy (.process lease) me
          (Service.record policy lease.job.notificationId lease.job.attempt outcome) past
            fun _ _ => True :=
        (Service.recordIn_sound reports Service.writeTries).mono fun _ _ _ _ => trivial
      refine sound.of_only (Service.recordIn_inward Service.writeTries) ?_
      intro now grown r inward
      cases r with
      | send => cases inward
      | update next => exact fun _ later => absurd (later.until grown) renders
      | _ => trivial
  refine recorded.bind fun result now _ _ => ?_
  cases result with
  | ok r => exact (ack_keeps lease).bind fun _ _ _ _ => keeps_pure fun _ _ => trivial
  | error e => exact keeps_note (keeps_pure fun _ _ => trivial)

theorem process_conveys (emitters : Emitters) (limit : Duration) (lease : Lease) :
    (process policy emitters limit lease).Keeps (conveyance (.process lease)) me
      (fun _ _ => True) past := by
  refine Keeps.bind (Service.get_known lease.job.notificationId) fun result now _ known => ?_
  match result with
  | .error e =>
      cases e with
      | notFound text =>
          exact keeps_note ((ack_keeps lease).bind fun _ _ _ _ => keeps_pure fun _ _ => trivial)
      | _ => exact keeps_note (keeps_pure fun _ _ => trivial)
  | .ok n =>
      have known := known n rfl
      have own := Past.id_of_mem_versions known
      rw [← own] at known
      refine Keeps.bind (claim_known known lease.job.attempt) fun result now _ claimed => ?_
      match result with
      | .error e => exact keeps_note (keeps_pure fun _ _ => trivial)
      | .ok none => exact (ack_keeps lease).bind fun _ _ _ _ => keeps_pure fun _ _ => trivial
      | .ok (some cur) =>
          have claimed := claimed cur rfl
          rw [own] at claimed
          refine Keeps.bind (attempt_conveys claimed) fun outcome now _ blameless => ?_
          exact keeps_note (reporting_keeps blameless)

end Worker

theorem works_of_operation (d : Deployment) {op : Operation}
    (other : ∀ lease, op ≠ .process lease) :
    (op.program d).Works := by
  cases op with
  | create s => exact Service.create_works s
  | get id => exact (Service.get_inward id).works
  | list filter => exact ⟨rfl, fun _ => trivial⟩
  | enqueue n => exact (Service.enqueue_inward n).works
  | markQueued id => exact (Service.markQueuedIn_inward Service.writeTries id).works
  | record id attempt outcome => exact (Service.recordIn_inward Service.writeTries).works
  | resetFailed id => exact (Service.resetFailed_inward id).works
  | retryFailed limit => exact Recovery.retryFailed_works limit
  | process lease => exact absurd rfl (other lease)

theorem conveying_kept (d : Deployment) : conveying.KeptBy d := by
  intro op me past permitted
  by_cases worker : ∃ lease, op = .process lease
  · obtain ⟨lease, rfl⟩ := worker
    exact Worker.process_conveys d.emitters d.sendLimit lease
  · have works := works_of_operation d fun lease same => worker ⟨lease, same⟩
    refine ((contract_kept d op me past permitted).of_only works ?_).mono fun _ _ _ _ => trivial
    intro now _ r work
    cases r with
    | send => cases work
    | update next => exact fun working => absurd working worker
    | _ => trivial

namespace Pipeline

variable {d : Deployment} {allowed : Pipeline → Move → Prop} {clock : Instant} {s : Pipeline}

theorem message_of_send (reached : Reachable d allowed clock s) {call : Nat} {channel : Channel}
    {recipient : String} {message : Message} {limit : Duration}
    {reply : Option (Except EmitError Unit)}
    (sent : .answered call (.send channel recipient message limit) reply ∈ s.past) :
    ∃ lease, s.past.operations[call]? = some (.process lease) ∧
      ∃ n ∈ s.past.versions lease.job.notificationId, n.channel = channel ∧
        n.recipient = recipient ∧
        Message.render channel n.payload = .ok message := by
  have lawful := (keeping_of_reachable (conveying_kept d) reached).lawful
  obtain ⟨before, after, split⟩ := List.append_of_mem sent
  have earlier : before <+: s.past := ⟨_, split.symm⟩
  obtain ⟨op, asker, ⟨lease, rfl, n, known, content⟩, _⟩ := lawful.of_split split
  exact ⟨lease, Past.operations_mono earlier asker, n, Past.versions_subset earlier known, content⟩

theorem blameless_of_write (reached : Reachable d allowed clock s) {call : Nat} {lease : Lease}
    {stored : Notification} (worker : s.past.operations[call]? = some (.process lease))
    (wrote : (call, stored) ∈ s.past.writes) : ¬stored.BlamesRendering := by
  have lawful := (keeping_of_reachable (conveying_kept d) reached).lawful
  have submitted := (keeping_of_reachable (contract_kept d) reached).lawful
  obtain ⟨e, mem, wrote⟩ := List.mem_filterMap.mp wrote
  obtain ⟨before, after, split⟩ := List.append_of_mem mem
  have earlier : before <+: s.past := ⟨_, split.symm⟩
  unfold Happening.write? at wrote
  split at wrote
  · -- what is inserted has not failed yet
    cases wrote
    obtain ⟨_, _, ⟨_, first⟩, _⟩ := submitted.of_split split
    cases first
    exact fun blamed => nomatch blamed.1
  · cases wrote
    obtain ⟨op, asker, spared, truth⟩ := lawful.of_split split
    obtain ⟨old, _, _, rfl⟩ := truth stored rfl
    have own : op = .process lease := by
      have same := (Past.operations_mono earlier asker).symm.trans worker
      exact Option.some.inj same
    have renders := (accounted_of_reachable reached).renders.until earlier
    exact fun blamed => spared ⟨lease, own⟩ renders blamed
  · cases wrote

/-- The check and the making of messages agree on every payload. So every version of a notification
that is ever stored has been checked, no attempt on it fails for want of a message, and no worker
marks it as failed for that; and whatever is handed to a provider is a message made of such a
version, for its recipient. -/
theorem contents_deliverable (reached : Reachable d allowed clock s) :
    (∀ channel payload, (∃ message, Message.render channel payload = .ok message) ↔
        Payload.validate channel payload = .ok ()) ∧
      (∀ id, ∀ n ∈ s.past.versions id, n.Checked ∧ ∀ w b,
        (Worker.attempt d.emitters d.sendLimit n).Meets w (fun _ => True)
          (fun result _ _ => ∀ outcome, result = some outcome → ¬outcome.BlamesRendering) b) ∧
      (∀ call lease stored, s.past.operations[call]? = some (.process lease) →
        (call, stored) ∈ s.past.writes → ¬stored.BlamesRendering) ∧
      ∀ call channel recipient message limit reply,
        .answered call (.send channel recipient message limit) reply ∈ s.past →
          Recipient.validate channel recipient = .ok () ∧
            ∃ lease, s.past.operations[call]? = some (.process lease) ∧
              ∃ n ∈ s.past.versions lease.job.notificationId, n.channel = channel ∧
                n.recipient = recipient ∧ Message.render channel n.payload = .ok message := by
  have accounted := accounted_of_reachable reached
  refine ⟨Message.render_iff_valid, ?_, fun call lease stored => blameless_of_write reached, ?_⟩
  · intro id n known
    have checked := accounted.checked known
    obtain ⟨message, made⟩ := Message.render_of_valid checked.payload
    exact ⟨checked, fun w b => Worker.attempt_blameless made⟩
  · intro call channel recipient message limit reply sent
    obtain ⟨lease, worker, n, known, rfl, rfl, made⟩ := message_of_send reached sent
    exact ⟨(accounted.checked known).recipient, lease, worker, n, known, rfl, rfl, made⟩

namespace Sample

/-- A worker is given the job of a notification, and the provider rejects the recipient. -/
def rejected : List Move :=
  creation ++
    [.lease (.ofSeconds 60) ⟨10#128⟩, .begin (.process (leaseUntil 10#128 60)), advance 1,
      .advance 1 { choice with delivery := some (.error (.invalidRecipient "gone")) },
      advance 1, advance 1, advance 1, advance 1]

end Sample

/-- The message went to a recipient that had been checked. The provider rejects it, and the failure
is not blamed on rendering. -/
theorem contents_deliverable_if_rejected : ∃ s channel recipient message limit reply stored,
    (initial Sample.clock).run? Sample.deployment anything Sample.rejected = some s ∧
      Reachable Sample.deployment (fun s m => anything s m) Sample.clock s ∧
      .answered 1 (.send channel recipient message limit) reply ∈ s.past ∧
      Recipient.validate channel recipient = .ok () ∧
      s.past.operations[1]? = some (.process (Sample.leaseUntil 10#128 60)) ∧
      (1, stored) ∈ s.past.writes ∧ stored.status = .failed ∧ ¬stored.BlamesRendering := by
  have run : ∃ s channel recipient message limit reply stored,
      (initial Sample.clock).run? Sample.deployment anything Sample.rejected = some s ∧
        s.past[12]? = some (.answered 1 (.send channel recipient message limit) reply) ∧
        s.past.operations[1]? = some (.process (Sample.leaseUntil 10#128 60)) ∧
        s.past.writes[2]? = some (1, stored) ∧ stored.status = .failed :=
    ⟨_, _, _, _, _, _, _, rfl, rfl, rfl, rfl, rfl⟩
  obtain ⟨s, channel, recipient, message, limit, reply, stored, run, sent, worker, wrote, failed⟩ :=
    run
  have reached := Reachable.initial.run run
  obtain ⟨_, _, spared, conveyed⟩ := contents_deliverable reached
  have sent := List.mem_of_getElem? sent
  have wrote := List.mem_of_getElem? wrote
  exact ⟨s, channel, recipient, message, limit, reply, stored, run, reached, sent,
    (conveyed _ _ _ _ _ _ sent).1, worker, wrote, failed, spared _ _ _ worker wrote⟩

end Pipeline

end Courier
