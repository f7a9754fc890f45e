import Courier.Proofs.Course
import Courier.Proofs.Warrants

namespace Courier

open Prog

def Request.isSend : Request → Bool
  | .send _ _ _ _ => true
  | _ => false

def Request.isInward : Request → Bool
  | .now | .get _ | .update _ | .enqueue _ | .ack _ => true
  | .draw bound => bound != 0
  | _ => false

theorem Request.not_isSend {r : Request} (inward : r.isInward = true) : r.isSend = false := by
  cases r with
  | send => cases inward
  | _ => rfl

theorem Backend.answers {r : Request} (b : Backend) (c : Choice) (inward : r.isInward = true) :
    ∃ step, b.answer { c with number := 0 } r = some step := by
  cases r with
  | draw bound =>
      have positive : 0 < bound := Nat.pos_of_ne_zero (bne_iff_ne.mp inward)
      exact ⟨_, if_pos positive⟩
  | now | get | update | enqueue | ack => exact ⟨_, rfl⟩
  | _ => cases inward

/-- All that the handling of a job may ask for can be answered. -/
theorem Backend.answers_handling {r : Request} (b : Backend) (c : Choice)
    (kind : r.isInward = true ∨ r.isSend = true) :
    ∃ step, b.answer { c with number := 0 } r = some step := by
  rcases kind with inward | send
  · exact b.answers c inward
  · cases r with
    | send => exact ⟨_, rfl⟩
    | _ => cases send

namespace Conversation

def written (conv : Conversation) : List Notification :=
  conv.filterMap fun x =>
    match x with
    | ⟨.insert n, .ok ()⟩ => some n
    | ⟨.update _, .ok stored⟩ => some stored
    | _ => none

theorem written_append (conv more : Conversation) :
    Conversation.written (conv ++ more) = conv.written ++ more.written := List.filterMap_append

theorem mem_written {conv : Conversation} {next stored : Notification}
    (wrote : ⟨.update next, .ok stored⟩ ∈ conv) : stored ∈ conv.written :=
  List.mem_filterMap.mpr ⟨_, wrote, rfl⟩

end Conversation

/-- What the answer of the provider says about the attempt. -/
def Worker.outcomeOf (limit : Duration) : Option (Except EmitError Unit) → Outcome
  | some (.ok ()) => .success
  | some (.error e) => e.classify
  | none => .transient s!"Send timed out after {limit.millis}ms"

namespace Service

/-- What a report comes to: it has found the notification not waiting for the attempt, or has
applied the outcome to the version that it found and to nothing else. -/
inductive Report (policy : Retry.Policy) (id : Uuid) (attempt : Nat) (outcome : Outcome) :
    Option (Except Error Recorded) → Conversation → Prop
  | stale {n : Notification} {conv : Conversation} (read : ⟨.get id, .ok (some n)⟩ ∈ conv)
      (settled : ¬(n.status = .queued ∧ n.attemptCount = attempt)) (unchanged : conv.written = []) :
      Report policy id attempt outcome (some (.ok (.stale n))) conv
  | applied {cur next stored : Notification} {time : Instant} {wrap : Notification → Recorded}
      {conv : Conversation} (read : ⟨.get id, .ok (some cur)⟩ ∈ conv)
      (queued : cur.status = .queued) (current : cur.attemptCount = attempt)
      (reported : Reported policy cur time outcome next wrap)
      (wrote : ⟨.update next, .ok stored⟩ ∈ conv) (made : ∃ old, stored = Store.merged old next)
      (only : conv.written = [stored]) :
      Report policy id attempt outcome (some (.ok (wrap stored))) conv
  | failed {e : Error} {conv : Conversation} (unchanged : conv.written = []) :
      Report policy id attempt outcome (some (.error e)) conv
  | broken {conv : Conversation} (unchanged : conv.written = []) :
      Report policy id attempt outcome none conv

variable {policy : Retry.Policy} {id : Uuid} {attempt : Nat} {outcome : Outcome}
  {told conv more : Conversation} {b : Backend}

theorem Report.later {result : Option (Except Error Recorded)}
    (h : Report policy id attempt outcome result conv) (silent : more.written = []) :
    Report policy id attempt outcome result (conv ++ more) := by
  have same : Conversation.written (conv ++ more) = conv.written := by
    rw [Conversation.written_append, silent, List.append_nil]
  cases h with
  | stale read settled unchanged =>
      exact .stale (List.mem_append_left _ read) settled (same.trans unchanged)
  | applied read queued current reported wrote made only =>
      exact .applied (List.mem_append_left _ read) queued current reported
        (List.mem_append_left _ wrote) made (same.trans only)
  | failed unchanged => exact .failed (same.trans unchanged)
  | broken unchanged => exact .broken (same.trans unchanged)

/-- Whatever others do meanwhile, the program meets the condition on what was said. -/
abbrev Tells {α : Type} (told : Conversation) (post : Option α → Conversation → Prop) (p : Prog α)
    (b : Backend) : Prop :=
  p.Onward .any (fun _ => True) told (fun result conv _ => post result conv) b

theorem get_tells (id : Uuid) (silent : told.written = []) :
    Tells told (fun result conv => conv.written = [] ∧
      ∀ n, result = some (.ok n) → ⟨.get id, .ok (some n)⟩ ∈ conv) (get id) b := by
  apply onward_ask
  intro before c step _ _ _
  refine ⟨trivial, ?_⟩
  have quiet : Conversation.written (told ++ [⟨.get id, step.reply⟩]) = [] := by
    rw [Conversation.written_append, silent]
    rfl
  match reply : step.reply with
  | .error e =>
      rw [reply] at quiet
      exact onward_pure ⟨quiet, fun _ same => nomatch same⟩
  | .ok none =>
      rw [reply] at quiet
      exact onward_pure ⟨quiet, fun _ same => nomatch same⟩
  | .ok (some n) =>
      rw [reply] at quiet
      refine onward_pure ⟨quiet, ?_⟩
      intro _ same
      cases same
      exact List.mem_append_right _ (List.mem_singleton.mpr rfl)

theorem written_snoc {r : Request} {reply : r.Reply} (silent : told.written = [])
    (none : Conversation.written [⟨r, reply⟩] = []) :
    Conversation.written (told ++ [⟨r, reply⟩]) = [] := by
  rw [Conversation.written_append, silent, none]
  rfl

theorem drawn_tells {α : Type} {bound : Nat} {f : Nat → Prog α}
    {post : Option α → Conversation → Prop} (silent : told.written = [])
    (h : ∀ extra conv b, conv.written = [] → told ⊆ conv → Tells conv post (f extra) b) :
    Tells told post (if bound = 0 then pure 0 >>= f else draw bound >>= f) b := by
  split
  · exact h 0 told b silent (List.Subset.refl _)
  · apply onward_ask
    intro before c step _ _ _
    exact ⟨trivial, h _ _ _ (written_snoc silent rfl) (List.subset_append_left _ _)⟩

theorem applied_tells (policy : Retry.Policy) (cur : Notification) (outcome : Outcome)
    (time : Instant) (silent : told.written = []) :
    Tells told (fun result conv => conv.written = [] ∧ told ⊆ conv ∧ ∀ next wrap,
      result = some (.ok (next, wrap)) → Reported policy cur time outcome next wrap)
      (applied policy cur outcome time) b := by
  unfold applied
  cases outcome with
  | success =>
      refine onward_pure ⟨silent, List.Subset.refl _, ?_⟩
      intro next wrap same
      cases same
      exact .sent
  | permanent message =>
      refine onward_pure ⟨silent, List.Subset.refl _, ?_⟩
      intro next wrap same
      cases same
      exact .refused
  | transient message =>
      apply drawn_tells silent
      intro extra conv b silent kept
      apply onward_orAbort
      · intro _
        exact ⟨silent, kept, fun _ _ same => nomatch same⟩
      · intro decision decided
        cases decision with
        | giveUp =>
            refine onward_pure ⟨silent, kept, ?_⟩
            intro next wrap same
            cases same
            exact .exhausted (Retry.Policy.decide?_eq_giveUp.mp decided)
        | retryAt delay retryAt =>
            apply onward_ask
            intro before c step _ _ _
            let asked : Request := .enqueue ⟨cur.id, attemptsAfter policy cur, time, retryAt⟩
            have silent : Conversation.written (conv ++ [⟨asked, step.reply⟩]) = [] :=
              written_snoc silent rfl
            have kept : told ⊆ conv ++ [⟨asked, step.reply⟩] :=
              List.Subset.trans kept (List.subset_append_left _ _)
            refine ⟨trivial, ?_⟩
            match reply : step.reply with
            | .error e =>
                rw [reply] at silent kept
                exact onward_pure ⟨silent, kept, fun _ _ same => nomatch same⟩
            | .ok _ =>
                rw [reply] at silent kept
                apply onward_note
                refine onward_pure ⟨silent, kept, ?_⟩
                intro next wrap same
                cases same
                exact .retried (Retry.Policy.left_of_decided decided) decided

theorem recordIn_tells (tries : Nat) (silent : told.written = []) :
    Tells told (Report policy id attempt outcome) (recordIn policy id attempt outcome tries) b := by
  -- on the tries that are left: when another one begins, nothing has been stored yet
  induction tries generalizing told b with
  | zero => exact onward_pure (.failed silent)
  | succ tries ih =>
      apply (get_tells id silent).bind
      · intro conv _ ⟨silent, _⟩
        exact .broken silent
      · intro result conv b ⟨silent, read⟩
        cases result with
        | error e => exact onward_pure (.failed silent)
        | ok current =>
            have read := read current rfl
            show Tells conv _
              (if current.status = .queued ∧ current.attemptCount = attempt then _ else _) b
            split
            · rename_i waiting
              apply onward_ask
              intro before c step _ _ _
              have silent : Conversation.written (conv ++ [⟨.now, step.reply⟩]) = [] :=
                written_snoc silent rfl
              refine ⟨trivial, ?_⟩
              show Tells _ _ (if _ then abort else _) step.backend
              split
              · exact onward_abort (.broken silent)
              · apply (applied_tells policy current outcome step.reply silent).bind
                · intro conv _ ⟨silent, _⟩
                  exact .broken silent
                · intro result conv' b ⟨silent, kept, made⟩
                  have read := kept (List.mem_append_left _ read)
                  match result with
                  | .error e => exact onward_pure (.failed silent)
                  | .ok (next, wrap) =>
                      have reported := made next wrap rfl
                      apply onward_ask
                      intro before c step _ _ answered
                      refine ⟨trivial, ?_⟩
                      match reply : step.reply with
                      | .ok stored =>
                          obtain ⟨old, _, _, made, _⟩ := Backend.answer_update answered reply
                          have wrote : ⟨.update next, .ok stored⟩ ∈
                              conv' ++ [⟨.update next, .ok stored⟩] :=
                            List.mem_append_right _ (List.mem_singleton.mpr rfl)
                          have only : Conversation.written (conv' ++ [⟨.update next, .ok stored⟩]) =
                              [stored] := by
                            rw [Conversation.written_append, silent]
                            rfl
                          apply onward_noteAll
                          exact onward_pure (.applied (List.mem_append_left _ read) waiting.1
                            waiting.2 reported wrote ⟨old, made⟩ only)
                      | .error e =>
                          have silent :
                              Conversation.written (conv' ++ [⟨.update next, .error e⟩]) = [] :=
                            written_snoc silent rfl
                          show Tells _ _ (if e.isConflict = true then _ else _) step.backend
                          split
                          · exact ih silent
                          · exact onward_pure (.failed silent)
            · rename_i settled
              exact onward_note (onward_pure (.stale read settled silent))

/-- The program asks for nothing from outside the process. -/
abbrev Inward {α : Type} (p : Prog α) : Prop := p.Only fun r => r.isInward = true

theorem get_inward (id : Uuid) : Inward (get id) := by
  refine ⟨rfl, ?_⟩
  intro reply
  match reply with
  | .error _ | .ok none | .ok (some _) => trivial

theorem markQueuedIn_inward (tries : Nat) (id : Uuid) : Inward (markQueuedIn tries id) := by
  induction tries with
  | zero => trivial
  | succ tries ih =>
      apply (get_inward id).bind
      intro result
      cases result with
      | error e => trivial
      | ok current =>
          show Inward (if current.status = .pending then _ else _)
          split
          · refine ⟨rfl, fun time => ⟨rfl, ?_⟩⟩
            intro reply
            match reply with
            | .ok stored => trivial
            | .error e =>
                show Inward (if e.isConflict = true then _ else _)
                split
                · exact ih
                · trivial
          · trivial

theorem applied_inward (policy : Retry.Policy) (cur : Notification) (outcome : Outcome)
    (time : Instant) : Inward (applied policy cur outcome time) := by
  unfold applied
  cases outcome with
  | success => trivial
  | permanent message => trivial
  | transient message =>
      have drawn {α : Type} {bound : Nat} {f : Nat → Prog α} (h : ∀ extra, Inward (f extra)) :
          Inward (if bound = 0 then pure 0 >>= f else draw bound >>= f) := by
        split
        · exact h 0
        · rename_i positive
          exact ⟨bne_iff_ne.mpr positive, h⟩
      apply drawn
      intro extra
      apply only_orAbort
      intro decision
      cases decision with
      | giveUp => trivial
      | retryAt delay retryAt =>
          refine ⟨rfl, ?_⟩
          intro reply
          match reply with
          | .error e => trivial
          | .ok _ => trivial

theorem recordIn_inward (tries : Nat) : Inward (recordIn policy id attempt outcome tries) := by
  induction tries with
  | zero => trivial
  | succ tries ih =>
      apply (get_inward id).bind
      intro result
      cases result with
      | error e => trivial
      | ok current =>
          show Inward (if current.status = .queued ∧ current.attemptCount = attempt then _ else _)
          split
          · refine ⟨rfl, ?_⟩
            intro time
            show Inward (if _ then abort else _)
            split
            · trivial
            · apply (applied_inward policy current outcome time).bind
              intro result
              match result with
              | .error e => trivial
              | .ok (next, wrap) =>
                  refine ⟨rfl, ?_⟩
                  intro reply
                  match reply with
                  | .ok stored => exact only_noteAll trivial
                  | .error e =>
                      show Inward (if e.isConflict = true then _ else _)
                      split
                      · exact ih
                      · trivial
          · trivial

end Service

namespace Worker

open Service (Inward Tells Report)

variable {policy : Retry.Policy} {lease : Lease} {b : Backend} {told : Conversation}

theorem ack_inward (lease : Lease) : Inward (ack lease) := by
  refine ⟨rfl, ?_⟩
  intro reply
  match reply with
  | .ok true => trivial
  | .ok false => trivial
  | .error _ => trivial

theorem claim_inward (n : Notification) (attempt : Nat) : Inward (claim n attempt) := by
  unfold claim
  split
  · trivial
  · split
    · apply (Service.markQueuedIn_inward Service.writeTries n.id).bind
      intro result
      cases result with
      | error e => trivial
      | ok queued =>
          show Inward (if queued.status = .queued ∧ queued.attemptCount = attempt then _ else _)
          split
          · trivial
          · trivial
    · trivial

/-- What comes of the outcome of an attempt once the worker has it: it is reported, and if that went
well, the job is released. -/
inductive Ended (policy : Retry.Policy) (lease : Lease) (outcome : Outcome) :
    Option JobOutcome → Conversation → Prop
  | recorded {r : Service.Recorded} {conv : Conversation}
      (report : Report policy lease.job.notificationId lease.job.attempt outcome
        (some (.ok r)) conv) :
      Ended policy lease outcome (some (.recorded r)) conv
  | retained {conv : Conversation} (unchanged : conv.written = []) :
      Ended policy lease outcome (some .retained) conv
  | broken {conv : Conversation} (unchanged : conv.written = []) :
      Ended policy lease outcome none conv

/-- Whatever the worker stores after the attempt is what its outcome makes of a queued record. -/
theorem Ended.reported {outcome : Outcome} {result : Option JobOutcome} {conv : Conversation}
    (h : Ended policy lease outcome result conv) {stored : Notification}
    (mem : stored ∈ conv.written) :
    ∃ old cur next time wrap, stored = Store.merged old next ∧ cur.status = .queued ∧
      Service.Reported policy cur time outcome next wrap := by
  cases h with
  | recorded report =>
      cases report with
      | stale read settled unchanged =>
          rw [unchanged] at mem
          cases mem
      | applied read queued current reported wrote made only =>
          obtain ⟨old, rfl⟩ := made
          rw [only] at mem
          exact ⟨old, _, _, _, _, List.mem_singleton.mp mem, queued, reported⟩
  | retained unchanged | broken unchanged =>
      rw [unchanged] at mem
      cases mem

def reporting (policy : Retry.Policy) (lease : Lease) (outcome : Outcome) : Prog JobOutcome := do
  match ← Service.record policy lease.job.notificationId lease.job.attempt outcome with
  | .ok r =>
    ack lease
    pure (.recorded r)
  | .error e =>
    note ⟨.error, "Failed to record attempt outcome, job will be redelivered",
      [Service.idField lease.job.notificationId, ("attempt", .count lease.job.attempt),
        ("error", .text e.display)]⟩
    pure .retained

theorem reporting_inward (lease : Lease) (outcome : Outcome) :
    Inward (reporting policy lease outcome) := by
  apply (Service.recordIn_inward Service.writeTries).bind
  intro result
  cases result with
  | error e => trivial
  | ok r => exact (ack_inward lease).bind fun _ => trivial

theorem reporting_tells (lease : Lease) (outcome : Outcome) :
    Tells [] (Ended policy lease outcome) (reporting policy lease outcome) b := by
  apply (Service.recordIn_tells Service.writeTries rfl).bind
  · intro conv _ report
    cases report with
    | broken unchanged => exact .broken unchanged
  · intro result conv b report
    cases result with
    | error e =>
        cases report with
        | failed unchanged => exact onward_note (onward_pure (.retained unchanged))
    | ok r =>
        apply onward_ask
        intro before c step _ _ _
        refine ⟨trivial, ?_⟩
        have ended : Ended policy lease outcome (some (.recorded r))
            (conv ++ [⟨.ack lease.token, step.reply⟩]) := .recorded (report.later rfl)
        match reply : step.reply with
        | .ok true =>
            rw [reply] at ended
            exact onward_pure ended
        | .ok false =>
            rw [reply] at ended
            exact onward_note (onward_pure ended)
        | .error e =>
            rw [reply] at ended
            exact onward_note (onward_pure ended)

theorem attempt_tells (emitters : Emitters) (limit : Duration) (n : Notification) :
    Tells told (fun result conv => conv = told ∨ ∃ channel recipient message reply,
      conv = told ++ [⟨.send channel recipient message limit, reply⟩] ∧
        result = some (outcomeOf limit reply)) (attempt emitters limit n) b := by
  unfold attempt
  split
  · exact onward_pure (.inl rfl)
  · split
    · exact onward_pure (.inl rfl)
    · apply onward_ask
      intro before c step _ _ _
      refine ⟨trivial, ?_⟩
      match reply : step.reply with
      | some (.ok ()) => exact onward_pure (.inr ⟨_, _, _, _, rfl, rfl⟩)
      | some (.error e) => exact onward_note (onward_pure (.inr ⟨_, _, _, _, rfl, rfl⟩))
      | none => exact onward_pure (.inr ⟨_, _, _, _, rfl, rfl⟩)

end Worker

end Courier
