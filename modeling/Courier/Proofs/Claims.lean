import Courier.Proofs.Reports

namespace Courier

open Prog

namespace Conversation

/-- The exchange shows that version of the notification, which was read or stored in it. -/
inductive Shown (id : Uuid) (n : Notification) : (r : Request) × r.Reply → Prop
  | read : Shown id n ⟨.get id, .ok (some n)⟩
  | stored {next : Notification} (own : n.id = id) : Shown id n ⟨.update next, .ok n⟩

def Shows (conv : Conversation) (id : Uuid) (n : Notification) : Prop :=
  ∃ told x, conv = told ++ [x] ∧ Shown id n x

end Conversation

namespace Service

variable {id : Uuid} {told : Conversation} {b : Backend}

theorem get_shows (id : Uuid) : Tells told
    (fun result conv => ∀ n, result = some (.ok n) → n.id = id ∧ conv.Shows id n) (get id) b := by
  apply onward_ask
  intro before c step _ _ answered
  refine ⟨trivial, ?_⟩
  match reply : step.reply with
  | .error e => exact onward_pure fun _ same => nomatch same
  | .ok none => exact onward_pure fun _ same => nomatch same
  | .ok (some n) =>
      have own : n.id = id := Store.id_of_find? (Backend.answer_get answered reply).1
      refine onward_pure fun _ same => ?_
      cases same
      exact ⟨own, _, _, rfl, .read⟩

theorem markQueuedIn_shows (tries : Nat) : Tells told
    (fun result conv => ∀ n, result = some (.ok n) → n.status = .queued → conv.Shows id n)
    (markQueuedIn tries id) b := by
  induction tries generalizing told b with
  | zero => exact onward_pure fun _ same => nomatch same
  | succ tries ih =>
      apply (get_shows id).bind
      · exact fun _ _ _ _ same => nomatch same
      · intro result conv b shows
        cases result with
        | error e => exact onward_pure fun _ same => nomatch same
        | ok current =>
            obtain ⟨own, shown⟩ := shows current rfl
            show Tells conv _ (if current.status = .pending then _ else _) b
            split
            · apply onward_ask
              intro before c step _ _ _
              refine ⟨trivial, onward_ask ?_⟩
              intro before c step _ _ answered
              refine ⟨trivial, ?_⟩
              match reply : step.reply with
              | .ok stored =>
                  obtain ⟨old, _, _, made, _⟩ := Backend.answer_update answered reply
                  refine onward_note (onward_pure fun _ same _ => ?_)
                  cases same
                  exact ⟨_, _, rfl, .stored (made ▸ own)⟩
              | .error e =>
                  show Tells _ _ (if e.isConflict = true then _ else _) step.backend
                  split
                  · exact ih
                  · exact onward_pure fun _ same => nomatch same
            · refine onward_pure fun _ same _ => ?_
              cases same
              exact shown

end Service

namespace Worker

open Service (Inward Tells)

variable {policy : Retry.Policy} {lease : Lease} {b : Backend} {told : Conversation}

/-- The last that the worker was told is that the notification waits for the attempt of the
lease. -/
def Claimed (lease : Lease) (conv : Conversation) : Prop :=
  ∃ n, conv.Shows lease.job.notificationId n ∧ n.status = .queued ∧
    n.attemptCount = lease.job.attempt

theorem claim_tells {n : Notification} (own : n.id = lease.job.notificationId)
    (shown : told.Shows lease.job.notificationId n) : Tells told
      (fun result conv => ∀ m, result = some (.ok (some m)) → Claimed lease conv)
      (claim n lease.job.attempt) b := by
  unfold claim
  split
  · exact onward_note (onward_pure fun _ same => nomatch same)
  · rename_i wanted
    split
    · apply (Service.markQueuedIn_shows Service.writeTries).bind
      · exact fun _ _ _ _ same => nomatch same
      · intro result conv b shows
        cases result with
        | error e => exact onward_pure fun _ same => nomatch same
        | ok queued =>
            show Tells conv _
              (if queued.status = .queued ∧ queued.attemptCount = lease.job.attempt then _ else _) b
            split
            · rename_i waits
              rw [own] at shows
              exact onward_pure fun _ _ => ⟨queued, shows queued rfl waits.1, waits⟩
            · exact onward_pure fun _ same => nomatch same
    · rename_i unpending
      simp only [Bool.or_eq_true, bne_iff_ne, not_or, Decidable.not_not] at wanted
      obtain ⟨unsettled, current⟩ := wanted
      have queued : n.status = .queued := by
        cases status : n.status with
        | pending => exact absurd status unpending
        | queued => rfl
        | sent | failed => exact absurd (congrArg Status.isTerminal status) unsettled
      exact onward_pure fun _ same => by
        cases same
        exact ⟨n, shown, queued, current⟩

/-- What the handling of a job comes to: the worker asks nobody outside, or it hands over one
message for a notification that waits for the attempt, and then reports what came of it. -/
inductive Handles (policy : Retry.Policy) (limit : Duration) (lease : Lease) :
    Option JobOutcome → Conversation → Prop
  | unsent {result : Option JobOutcome} {conv : Conversation}
      (inward : ∀ x ∈ conv, x.1.isInward = true) : Handles policy limit lease result conv
  | sent {result : Option JobOutcome} {prior late : Conversation} {channel : Channel}
      {recipient : String} {message : Message} {reply : Option (Except EmitError Unit)}
      (inward : ∀ x ∈ prior, x.1.isInward = true) (claimed : Claimed lease prior)
      (silent : ∀ x ∈ late, x.1.isInward = true)
      (ended : Ended policy lease (outcomeOf limit reply) result late) :
      Handles policy limit lease result
        (prior ++ ⟨.send channel recipient message limit, reply⟩ :: late)

theorem Handles.of_split {limit wait : Duration} {result : Option JobOutcome}
    {conv prior late : Conversation} {channel : Channel} {recipient : String} {message : Message}
    {reply : Option (Except EmitError Unit)} (h : Handles policy limit lease result conv)
    (split : conv = prior ++ ⟨.send channel recipient message wait, reply⟩ :: late) :
    Claimed lease prior ∧ Ended policy lease (outcomeOf limit reply) result late := by
  cases h with
  | unsent inward =>
      have sent := inward ⟨.send channel recipient message wait, reply⟩ (by simp [split])
      cases sent
  | sent inward claimed silent ended =>
      obtain ⟨same, rfl⟩ := split_unique (p := fun x => x.1.isSend) split rfl
        (fun x mem => Request.not_isSend (inward x mem))
        fun x mem => Request.not_isSend (silent x mem)
      cases same
      rw [List.append_cancel_right split] at claimed
      exact ⟨claimed, ended⟩

theorem process_handles (emitters : Emitters) (limit : Duration) (lease : Lease) :
    Tells [] (Handles policy limit lease) (process policy emitters limit lease) b := by
  have released (conv : Conversation) (b : Backend) (outcome : JobOutcome)
      (inward : ∀ x ∈ conv, x.1.isInward = true) :
      Tells conv (Handles policy limit lease) (ack lease >>= fun _ => pure outcome) b := by
    have silent : Inward (ack lease >>= fun _ => pure outcome) :=
      (ack_inward lease).bind fun _ => trivial
    exact (silent.onward inward).mono fun _ _ _ => .unsent
  have start : ∀ x ∈ ([] : Conversation), x.1.isInward = true := fun _ mem => nomatch mem
  apply ((Service.get_inward _).along start (Service.get_shows lease.job.notificationId)).bind
  · exact fun conv _ ⟨_, inward⟩ => .unsent inward
  · intro result conv b ⟨shows, inward⟩
    cases result with
    | error e =>
        cases e with
        | notFound text => exact onward_note (released conv b .skipped inward)
        | _ => exact onward_note (onward_pure (.unsent inward))
    | ok n =>
        obtain ⟨own, shown⟩ := shows n rfl
        apply ((claim_inward n lease.job.attempt).along inward (claim_tells own shown)).bind
        · exact fun conv _ ⟨_, inward⟩ => .unsent inward
        · intro result conv b ⟨claims, inward⟩
          match result with
          | .error e => exact onward_note (onward_pure (.unsent inward))
          | .ok none => exact released conv b .skipped inward
          | .ok (some claimed) =>
              apply (attempt_tells emitters limit claimed).bind
              · intro conv' _ sent
                rcases sent with rfl | ⟨_, _, _, _, _, same⟩
                · exact .unsent inward
                · cases same
              · intro outcome conv' b sent
                apply onward_note
                apply (reporting_inward lease outcome |>.meets (reporting_tells lease outcome)).mono
                intro result late _ ⟨ended, silent⟩
                rcases sent with rfl | ⟨channel, recipient, message, reply, rfl, same⟩
                · refine .unsent fun x mem => ?_
                  rcases List.mem_append.mp mem with old | new
                  · exact inward x old
                  · exact silent x new
                · cases same
                  rw [List.append_assoc, List.singleton_append]
                  exact .sent inward (claims claimed rfl) silent ended

end Worker
end Courier
