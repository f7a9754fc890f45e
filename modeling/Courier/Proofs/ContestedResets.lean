import Courier.Proofs.Contest
import Courier.Proofs.RecoveryAccounts

namespace Courier

namespace Contest

open Prog Service

variable {α : Type} {start : Store} {v v' : Contest} {me i : Nat} {id : Uuid} {n p : Notification}
  {won queued : Finset Uuid} {post : α → Contest → Prop}

/-- Whatever the others do, the program does what a reset may do. -/
abbrev Contends (me : Nat) (post : α → Contest → Prop) (p : Prog α) (v : Contest) : Prop :=
  protocol.Complies me post p v

theorem contends_now {f : Instant → Prog α}
    (rest : ∀ v' time, Later me v v' → Contends me post (f time) v') :
    Contends me post (now >>= f) v := by
  intro v' later c step answered
  cases answered
  exact ⟨v', rfl, .idle, rest v' _ later⟩

theorem contends_get {f : Except Error Notification → Prog α} (h : v.Sound start)
    (absent : ∀ v', Later me v v' → v'.real.store.find? id = none →
      Contends me post (f (.error (.notificationNotFound id))) v')
    (present : ∀ v' n, Later me v v' → v'.real.store.find? id = some n →
      Contends me post (f (.ok n)) v') :
    Contends me post (Service.get id >>= f) v := by
  intro v' later c step answered
  cases answered
  refine ⟨v', rfl, .idle, ?_⟩
  have up : v'.real.store.get id = .ok (v'.real.store.find? id) := if_pos (h.later later).storeUp
  simp only [Backend.reading, real_protocol, up]
  cases found : v'.real.store.find? id with
  | none => exact absent v' later found
  | some n => exact present v' n later found

/-- The write of a reset is stored, unless somebody else has reset the notification. -/
theorem contends_reset {time : Instant} {f : Except Error Notification → Prog α}
    (h : v.Holds start me won won) (known : start.find? n.id = some n) (failed : n.status = .failed)
    (first : ∀ v', v'.Amid start me won (Store.merged n (n.resetAt time)) →
      Contends me post (f (.ok (Store.merged n (n.resetAt time)))) v')
    (second : ∀ v' i e, Later me v v' → v'.resetter n.id = some i → e.isConflict = true →
      Contends me post (f (.error e)) v') :
    Contends me post (update (n.resetAt time) >>= f) v := by
  intro v' later c step answered
  have h := h.later later
  cases answered
  -- the record is still the one that was read, or somebody else's reset has raised its version
  cases taken : v'.resetter n.id with
  | none =>
      have found := (h.sound.same_of_free taken).trans known
      have written : v'.real.store.update (n.resetAt time) = _ :=
        Store.update_of_current h.sound.storeUp found rfl
      obtain ⟨v'', real, moved, amid⟩ := h.resets found failed
      simp only [Backend.update, real_protocol, written]
      exact ⟨v'', real, moved, first v'' amid⟩
  | some i =>
      obtain ⟨_, q, same, _, found, _, newer⟩ := h.sound.taken taken
      obtain rfl := Option.some.inj (known.symm.trans same)
      have refused : v'.real.store.update (n.resetAt time) = _ :=
        Store.update_of_changed h.sound.storeUp found (Int.ne_of_gt newer)
      simp only [Backend.update, real_protocol, refused]
      exact ⟨v', rfl, .idle, second v' i _ later taken rfl⟩

theorem contends_push {time : Instant} {f : Except Error Unit → Prog α} (h : v.Amid start me won p)
    (rest : ∀ v', v'.Amid start me won p → v'.real.queue.isWaiting (p.id, 0) = true →
      Contends me post (f (.ok ())) v') :
    Contends me post (Prog.enqueue (.immediate p.id 0 time) >>= f) v := by
  intro v' later c step answered
  cases answered
  have h := h.later later
  obtain ⟨v'', real, moved, amid, waits⟩ := h.pushes
  have pushed : v'.real.queue.enqueue (.immediate p.id 0 time) = .ok _ :=
    if_pos h.holds.sound.queueUp
  simp only [Backend.enqueue, real_protocol, pushed]
  exact ⟨v'', real, moved, rest v'' amid waits⟩

theorem contends_mark {time : Instant} {f : Except Error Notification → Prog α}
    (h : v.Amid start me won p) (waits : v.real.queue.isWaiting (p.id, 0) = true)
    (rest : ∀ v' q, v'.Holds start me (insert p.id won) (insert p.id won) →
      Contends me post (f (.ok q)) v') :
    Contends me post (update (p.queuedFrom time) >>= f) v := by
  intro v' later c step answered
  cases answered
  have h := h.later later
  have written : v'.real.store.update (p.queuedFrom time) = _ :=
    Store.update_of_current h.holds.sound.storeUp h.stored rfl
  obtain ⟨v'', real, moved, holds⟩ := h.marks (waiting_later waits later)
  simp only [Backend.update, real_protocol, written]
  exact ⟨v'', real, moved, rest v'' _ holds⟩

def Resolved (start : Store) (id : Uuid) (v : Contest) : Prop :=
  ∀ n, start.find? id = some n → n.status = .failed → v.resetter id ≠ none

theorem resolved_of_taken (taken : v.resetter id = some i) : Resolved start id v :=
  fun _ _ _ free => nomatch free.symm.trans taken

/-- What has come of the first part of a reset: the call has reset the notification, or somebody
else has, or it had not failed. -/
inductive WasReset (start : Store) (me : Nat) (won : Finset Uuid) (id : Uuid) :
    Except Error (Notification × Notification) → Contest → Prop
  | first {n p : Notification} {v : Contest} (own : p.id = id) (amid : v.Amid start me won p) :
      WasReset start me won id (.ok (n, p)) v
  | refused {e : Error} {v : Contest} (holds : v.Holds start me won won)
      (resolved : Resolved start id v) :
      WasReset start me won id (.error e) v

/-- A reset that comes second gives up, however many tries it has left. -/
theorem resetIn_taken (tries : Nat) (h : v.Holds start me won won)
    (taken : v.resetter id = some i) :
    Contends me (WasReset start me won id) (resetIn tries id) v := by
  have refused (v' : Contest) (later : Later me v v') (e : Error) :
      WasReset start me won id (.error e) v' :=
    .refused (h.later later) (resolved_of_taken (resetter_later taken later))
  cases tries with
  | zero => exact refused v .refl _
  | succ tries =>
      apply contends_get h.sound
      · exact fun v' later _ => refused v' later _
      · intro v' n later found
        obtain ⟨_, q, _, _, now, unfailed, _⟩ :=
          (h.later later).sound.taken (resetter_later taken later)
        obtain rfl := Option.some.inj (found.symm.trans now)
        simp only [if_neg unfailed]
        exact refused v' later _

theorem resetIn_contends (tries : Nat) (h : v.Holds start me won won) :
    Contends me (WasReset start me won id) (resetIn (tries + 1) id) v := by
  apply contends_get h.sound
  · intro v' later absent
    have h := h.later later
    refine .refused h fun n found _ free => ?_
    exact nomatch absent.symm.trans ((h.sound.same_of_free free).trans found)
  · intro v' n later found
    have h := h.later later
    have own := Store.id_of_find? found
    subst own
    by_cases failed : n.status = .failed
    · obtain ⟨_, known⟩ := h.sound.untouched found failed
      simp only [if_pos failed]
      apply contends_now
      intro v' time later
      apply contends_reset (h.later later) known failed
      · exact fun v' amid => .first rfl amid
      · intro v'' i e more taken conflict
        simp only [if_pos conflict]
        exact resetIn_taken tries ((h.later later).later more) taken
    · simp only [if_neg failed]
      refine .refused h fun m known wasFailed free => ?_
      rw [h.sound.same_of_free free, known] at found
      cases found
      exact failed wasFailed

/-- The call has marked as queued what it had reset. -/
def Marked (start : Store) (me : Nat) (won : Finset Uuid) (id : Uuid)
    (result : Except Error Notification) (v : Contest) : Prop :=
  (∃ q, result = .ok q) ∧ v.Holds start me (insert id won) (insert id won)

theorem markQueued_contends (h : v.Amid start me won p)
    (waits : v.real.queue.isWaiting (p.id, 0) = true) :
    Contends me (Marked start me won p.id) (markQueued p.id) v := by
  apply contends_get h.holds.sound
  · intro v' later absent
    exact nomatch absent.symm.trans (h.later later).stored
  · intro v' n later found
    have h := h.later later
    obtain rfl := Option.some.inj (found.symm.trans h.stored)
    simp only [if_pos h.pending]
    apply contends_now
    intro v'' time more
    apply contends_mark (h.later more) (waiting_later (waiting_later waits later) more)
    exact fun v' q holds => ⟨⟨q, rfl⟩, holds⟩

theorem enqueue_contends (h : v.Amid start me won p) :
    Contends me (Marked start me won p.id) (Service.enqueue p) v := by
  simp only [Service.enqueue, h.pending, h.anew]
  apply contends_now
  intro v' time later
  apply contends_push (h.later later)
  exact fun v' amid waits => markQueued_contends amid waits

/-- What has come of a reset. -/
inductive WasRecovered (start : Store) (me : Nat) (won : Finset Uuid) (id : Uuid) :
    Except Error Notification → Contest → Prop
  | first {q : Notification} {v : Contest} (fresh : id ∉ won)
      (holds : v.Holds start me (insert id won) (insert id won)) :
        WasRecovered start me won id (.ok q) v
  | refused {e : Error} {v : Contest} (holds : v.Holds start me won won)
      (resolved : Resolved start id v) :
      WasRecovered start me won id (.error e) v

theorem resetFailed_contends (h : v.Holds start me won won) :
    Contends me (WasRecovered start me won id) (resetFailed id) v := by
  apply (resetIn_contends 4 h).bind
  intro result v' reset
  cases reset with
  | refused holds resolved => exact .refused holds resolved
  | first own amid =>
      subst own
      apply (enqueue_contends amid).bind
      rintro _ v'' ⟨⟨q, rfl⟩, holds⟩
      exact .first amid.fresh holds

/-- The call has reset so many notifications and has marked them all as queued, and no failed
notification is left that nobody has reset, but for those listed. -/
def Recovered (start : Store) (me : Nat) (left : List Uuid) (count : Nat) (v : Contest) : Prop :=
  ∃ won, v.Holds start me won won ∧ count = won.card ∧ ∀ id, id ∉ left → Resolved start id v

theorem Resolved.moves (h : Resolved start id v) (moved : Moves i v v') : Resolved start id v' := by
  intro n found failed free
  obtain ⟨j, taken⟩ := Option.ne_none_iff_exists'.mp (h n found failed)
  exact nomatch free.symm.trans (moved.resetter taken)

theorem Recovered.others {left : List Uuid} {count : Nat} (h : v.Recovered start me left count)
    (others : protocol.Others me v v') : v'.Recovered start me left count := by
  obtain ⟨won, holds, counted, resolved⟩ := h
  refine ⟨won, holds.others others, counted, fun id done => ?_⟩
  obtain ⟨_, _, moved⟩ := others
  exact (resolved id done).moves moved

theorem resetAll_contends {ids : List Uuid} {count errors : Nat}
    (h : v.Recovered start me ids count) :
    Contends me (fun counts v => v.Recovered start me [] counts.1)
      (Recovery.resetAll ids count errors) v := by
  induction ids generalizing count errors v with
  | nil => exact h
  | cons id rest ih =>
      obtain ⟨won, holds, counted, resolved⟩ := h
      have reset : Contends me (WasRecovered start me won id) (resetFailed id) v :=
        resetFailed_contends holds
      apply (reset.keeping (P := fun v => ∀ other, other ∉ id :: rest → Resolved start other v)
        (fun _ _ _ resolved moved other done => (resolved other done).moves moved) resolved).bind
      rintro _ v' ⟨outcome, resolved⟩
      have remaining (own : Resolved start id v') (other : Uuid) (done : other ∉ rest) :
          Resolved start other v' := by
        by_cases same : other = id
        · exact same ▸ own
        · exact resolved other (by simp [same, done])
      cases outcome with
      | first fresh holds =>
          have taken := (holds.own id).mpr (Finset.mem_insert_self _ _)
          refine ih ⟨_, holds, ?_, remaining (resolved_of_taken taken)⟩
          rw [Finset.card_insert_of_notMem fresh, counted]
      | refused holds own => exact ih ⟨won, holds, counted, remaining own⟩

theorem retryFailed_contends (h : v.Holds start me ∅ ∅) :
    Contends me (fun result v => ∃ summary : Recovery.Summary, result = .ok summary ∧
      v.Recovered start me [] summary.queued) (Recovery.retryFailed none) v := by
  intro v' later c step answered
  have h := h.later later
  cases answered
  refine ⟨v', rfl, .idle, ?_⟩
  obtain ⟨failed, scanned⟩ : ∃ failed, v'.real.store.scan (.withStatus .failed) = .ok failed :=
    ⟨_, if_pos h.sound.storeUp⟩
  simp only [Backend.reading, real_protocol, scanned]
  show Contends _ _ (Recovery.resetAll (Recovery.batchOf none failed) 0 0 >>= _) _
  refine (resetAll_contends ⟨∅, h, rfl, fun id apart n found wasFailed free => apart ?_⟩).bind ?_
  · -- what has failed and is not listed was reset before the listing
    rw [← h.sound.same_of_free free] at found
    have listed := (Store.mem_listed scanned).mpr ⟨Store.mem_of_find? found, wasFailed⟩
    rw [← Store.id_of_find? found]
    simpa [Recovery.batchOf] using ⟨n, listed, rfl⟩
  · exact fun counts v'' recovered => ⟨_, rfl, recovered⟩

end Contest

end Courier
