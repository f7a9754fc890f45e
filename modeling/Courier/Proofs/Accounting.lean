import Courier.Proofs.Conservation
import Courier.Proofs.Paging
import Courier.Proofs.Undisturbed

namespace Courier

open Prog

namespace Queue

variable {q : Queue} {id : Uuid} {job : Job}

def entriesOf (q : Queue) (id : Uuid) : List Entry :=
  q.waiting.filter fun e => e.job.notificationId == id

def holdingsOf (q : Queue) (id : Uuid) : List Held :=
  q.leased.filter fun held => held.entry.job.notificationId == id

theorem entriesOf_push (other : job.notificationId ≠ id) :
    (q.push job).entriesOf id = q.entriesOf id := by
  unfold push
  split
  · rfl
  · simp [entriesOf, List.filter_append, other]

theorem holdingsOf_push (other : job.notificationId ≠ id) :
    (q.push job).holdingsOf id = q.holdingsOf id := by
  unfold push
  split
  · rfl
  · simp only [holdingsOf, List.filter_filter]
    apply List.filter_congr
    intro held _
    by_cases own : held.entry.job.notificationId = id
    · have kept : held.entry.job.key ≠ job.key := fun same =>
        other ((Prod.mk.inj same).1.symm.trans own)
      simp [own, kept]
    · simp [own]

theorem count_keys (q : Queue) (id : Uuid) (attempt : Nat) : q.keys.count (id, attempt) =
    ((q.entriesOf id).map fun e => e.job.key).count (id, attempt) +
      ((q.holdingsOf id).map fun held => held.entry.job.key).count (id, attempt) := by
  have own : (((id, attempt) : Job.Key).1 == id) = true := beq_self_eq_true id
  have split : (q.keys.filter fun key => key.1 == id) =
      (q.entriesOf id).map (fun e => e.job.key) ++
        (q.holdingsOf id).map fun held => held.entry.job.key := by
    simp [keys_eq, entriesOf, holdingsOf, List.filter_append, List.filter_map,
      Function.comp_def, Job.key]
  rw [← List.count_append, ← split]
  exact (List.count_filter (p := fun key : Job.Key => key.1 == id) own).symm

end Queue

namespace Backend

variable {b between b' : Backend} {id : Uuid} {batch more : List Uuid}
  {n : Notification} {job : Job}

/-- All that has changed are records and jobs of these notifications. -/
structure Confined (batch : List Uuid) (b b' : Backend) : Prop where
  ids : b'.store.ids = b.store.ids
  records : ∀ id ∉ batch, b'.store.find? id = b.store.find? id
  waiting : ∀ id ∉ batch, b'.queue.entriesOf id = b.queue.entriesOf id
  held : ∀ id ∉ batch, b'.queue.holdingsOf id = b.queue.holdingsOf id

/-- The notification is queued for its first attempt, as it was when it was new, and there is
exactly one job for that attempt. -/
structure Restarted (b : Backend) (id : Uuid) : Prop where
  record : ∃ n, b.store.find? id = some n ∧ n.status = .queued ∧ n.attemptCount = 0 ∧
    n.errorMessage = none ∧ n.nextRetryAt = none
  job : b.queue.keys.count (id, 0) = 1

theorem Untouched.confined (same : b.Untouched b') (batch : List Uuid) :
    b.Confined batch b' := by
  obtain ⟨_, _, _, rfl⟩ := same
  exact ⟨rfl, fun _ _ => rfl, fun _ _ => rfl, fun _ _ => rfl⟩

theorem Confined.trans (first : b.Confined batch between) (second : between.Confined more b') :
    b.Confined (batch ++ more) b' := by
  refine ⟨second.ids.trans first.ids, fun id apart => ?_, fun id apart => ?_, fun id apart => ?_⟩
  all_goals obtain ⟨one, two⟩ := not_or.mp (mt List.mem_append.mpr apart)
  · rw [second.records id two, first.records id one]
  · rw [second.waiting id two, first.waiting id one]
  · rw [second.held id two, first.held id one]

theorem Confined.untouched (first : b.Confined batch between) (same : between.Untouched b') :
    b.Confined batch b' := by
  obtain ⟨_, _, _, rfl⟩ := same
  exact ⟨first.ids, first.records, first.waiting, first.held⟩

theorem Confined.putting (first : b.Confined [id] b') (own : n.id = id) :
    b.Confined [id] (b'.putting n) := by
  refine ⟨(Store.ids_put _ _).trans first.ids, fun id apart => ?_, first.waiting, first.held⟩
  have other : n.id ≠ id := fun same => apart (List.mem_singleton.mpr (same.symm.trans own))
  exact (Store.find?_put_of_ne other).trans (first.records id apart)

theorem Confined.pushing (first : b.Confined [id] b') (own : job.notificationId = id) :
    b.Confined [id] (b'.pushing job) := by
  refine ⟨first.ids, first.records, fun id apart => ?_, fun id apart => ?_⟩
  all_goals
    have other : job.notificationId ≠ id := fun same =>
      apart (List.mem_singleton.mpr (same.symm.trans own))
  · exact (Queue.entriesOf_push other).trans (first.waiting id apart)
  · exact (Queue.holdingsOf_push other).trans (first.held id apart)

theorem Confined.count_keys (h : b.Confined batch b') (apart : id ∉ batch) (attempt : Nat) :
    b'.queue.keys.count (id, attempt) = b.queue.keys.count (id, attempt) := by
  rw [Queue.count_keys, Queue.count_keys, h.waiting id apart, h.held id apart]

theorem Restarted.later (h : b.Restarted id) (later : b.Confined batch b') (apart : id ∉ batch) :
    b'.Restarted id := by
  obtain ⟨n, stored, settled⟩ := h.record
  exact ⟨⟨n, (later.records id apart).trans stored, settled⟩,
    (later.count_keys apart 0).trans h.job⟩

theorem Untouched.nodup_keys (same : b.Untouched b') (keys : b.queue.keys.Nodup) :
    b'.queue.keys.Nodup := by
  obtain ⟨_, _, _, rfl⟩ := same
  exact keys

/-- A record that is pending for its first attempt is started by pushing its job and marking it. -/
theorem restarted_of_marked {pending : Notification} (time written : Instant)
    (present : b.store.find? pending.id = some pending) (keys : b.queue.keys.Nodup)
    (first : pending.attemptCount = 0) (clear : pending.errorMessage = none)
    (unplanned : pending.nextRetryAt = none) :
    ((b.pushing (.immediate pending.id pending.attemptCount time)).putting
      (Store.merged pending (pending.queuedFrom written))).Restarted pending.id := by
  have live : (pending.id, pending.attemptCount) ∈
      (b.queue.push (.immediate pending.id pending.attemptCount time)).keys :=
    Queue.mem_keys_push.mpr (.inl rfl)
  have stored : (b.store.put (Store.merged pending (pending.queuedFrom written))).find? pending.id =
      some (Store.merged pending (pending.queuedFrom written)) :=
    Store.find?_put_self (n := Store.merged pending (pending.queuedFrom written)) present
  refine ⟨⟨_, stored, rfl, first, clear, unplanned⟩, ?_⟩
  rw [first] at live ⊢
  exact List.count_eq_one_of_mem (Queue.nodup_keys_push keys) live

end Backend

namespace Service

variable {b base after : Backend} {id : Uuid} {old : Notification} {told : Conversation}

/-- What a reset leaves behind: nothing else has changed, each attempt has no more than one job, and
if the reset came to its end, the notification has been started again. -/
structure Resets (id : Uuid) (b : Backend) (outcome : Option (Except Error Notification))
    (_ : Conversation) (b' : Backend) : Prop where
  confined : b.Confined [id] b'
  keys : b'.queue.keys.Nodup
  restarted : ∀ n, outcome = some (.ok n) → b'.Restarted id

theorem Resets.broken {e : Error} {conv : Conversation} (confined : b.Confined [id] base)
    (keys : base.queue.keys.Nodup) (same : base.Untouched after) :
    Resets id b (some (.error e)) conv after :=
  ⟨confined.untouched same, same.nodup_keys keys, fun _ ended => nomatch ended⟩

theorem putBack_resets {pending : Notification} {e : Error} (confined : b.Confined [old.id] base)
    (keys : base.queue.keys.Nodup) (found : base.store.find? old.id = some pending)
    (same : base.Untouched after) :
    (putBack old.id old pending e).Falters told (Resets old.id b) after := by
  apply looks_now same
  intro time after same
  have stored : base.store.find? (putBackAt old pending time).id = some pending := found
  apply lone_update same stored rfl
  · intro after same
    exact onward_note (onward_pure (.broken confined keys same))
  · intro after same
    exact onward_pure (.broken (confined.putting (by rfl)) keys same)

theorem resetFailed_resets (keys : b.queue.keys.Nodup) (found : b.store.find? id = some old)
    (failed : old.status = .failed) : (resetFailed id).Falters told (Resets id b) b := by
  have own : old.id = id := Store.id_of_find? found
  subst own
  have unchanged : b.Confined [old.id] b := (Backend.Untouched.refl b).confined _
  apply lone_get (.refl b)
  rintro _ after same (rfl | rfl)
  · exact onward_pure (.broken unchanged keys same)
  · rw [found]
    show Falters _ _ ((if old.status = .failed then _ else _) >>= _) _
    rw [if_pos failed]
    apply looks_now same
    intro time after same
    have stored : b.store.find? (old.resetAt time).id = some old := found
    apply lone_update same stored rfl
    · intro after same
      exact onward_pure (.broken unchanged keys same)
    · intro after same
      let pending := Store.merged old (old.resetAt time)
      have present : (b.putting pending).store.find? pending.id = some pending :=
        Store.find?_put_self found
      have reset : b.Confined [old.id] (b.putting pending) := unchanged.putting rfl
      show Falters _ _ (enqueue pending >>= _) _
      apply (enqueue_lone same present rfl).bind
      · intro conv after enqueued
        cases enqueued
      · intro result conv after enqueued
        cases enqueued with
        | refused _ same =>
            show Falters _ _ (putBack old.id old pending _) _
            exact putBack_resets reset keys present same
        | unmarked _ _ _ same =>
            exact onward_pure (.broken (reset.pushing (by rfl)) (Queue.nodup_keys_push keys) same)
        | @queued time written _ _ _ _ same =>
            have restarted := Backend.restarted_of_marked time written present keys rfl rfl rfl
            refine onward_pure ⟨?_, ?_, fun _ _ => ?_⟩
            · exact ((reset.pushing (by rfl)).putting (by rfl)).untouched same
            · exact same.nodup_keys (Queue.nodup_keys_push keys)
            · exact restarted.later (same.confined []) List.not_mem_nil

end Service

namespace Recovery

open Service

variable {b b' : Backend} {accounts : List Account} {conv : Conversation} {limit : Option Nat}
  {summary : Summary}

/-- Resets one after another, of different notifications that have failed, change nothing else, and
start again those that they can. -/
theorem Accounts.resets (course : Accounts .faltering accounts b b') (keys : b.queue.keys.Nodup)
    (once : (accounts.map Account.id).Nodup)
    (failed : ∀ a ∈ accounts, ∃ old, b.store.find? a.id = some old ∧ old.status = .failed) :
    b.Confined (accounts.map Account.id) b' ∧
      ∀ a ∈ accounts, a.isError = false → b'.Restarted a.id := by
  induction course with
  | nil => exact ⟨(Backend.Untouched.refl _).confined _, fun _ mem => nomatch mem⟩
  | @cons a rest b between b' course later ih =>
      obtain ⟨apart, once⟩ := List.nodup_cons.mp once
      obtain ⟨old, found, wasFailed⟩ := failed a List.mem_cons_self
      have reset : (resetFailed a.id).Falters [] (Resets a.id b) b :=
        resetFailed_resets keys found wasFailed
      have first : Resets a.id b (some a.result) _ between := reset.goes course
      have failedLater :
          ∀ x ∈ rest, ∃ old, between.store.find? x.id = some old ∧ old.status = .failed := by
        intro x mem
        have other : x.id ∉ [a.id] := fun same =>
          apart (List.mem_singleton.mp same ▸ List.mem_map_of_mem mem)
        rw [first.confined.records x.id other]
        exact failed x (List.mem_cons_of_mem a mem)
      obtain ⟨confined, restarted⟩ := ih first.keys once failedLater
      refine ⟨first.confined.trans confined, fun x mem succeeded => ?_⟩
      rcases List.mem_cons.mp mem with rfl | mem
      · cases result : x.result with
        | ok n => exact (first.restarted n (congrArg some result)).later confined apart
        | error e => simp [Account.isError, result] at succeeded
      · exact restarted x mem succeeded

theorem retryFailed_remaining {w : Surroundings}
    (course : (retryFailed limit).Goes w b conv (.done (.ok summary)) b') :
    summary.remaining = summary.eligible - summary.queued := by
  have anyway : (retryFailed limit).Meets w (fun _ => True) (fun result _ _ =>
      ∀ s, result = some (.ok s) → s.remaining = s.eligible - s.queued) b := by
    intro _ _ step _ _ _
    refine ⟨trivial, ?_⟩
    cases step.reply with
    | error e => exact fun _ ended => nomatch ended
    | ok failed =>
        have anything := meets_anything (w := w) (resetAll (batchOf limit failed) 0 0) step.backend
        apply anything.bind (fun _ _ _ _ missing => nomatch missing)
        intro counts conv after _ s ended
        cases ended
        rfl
  exact anyway.goes course summary rfl

/-- What a bulk recovery has done, by its summary and by what has become of the store and the
queue. -/
structure Accounted (limit : Option Nat) (b : Backend) (failed : List Notification)
    (accounts : List Account) (summary : Summary) (b' : Backend) : Prop where
  listed : failed.Perm (b.store.records.filter fun n => Status.failed == n.status)
  ordered : failed.Pairwise Store.Before
  batch : accounts.map Account.id = batchOf limit failed
  eligible : summary.eligible = failed.length
  queued : summary.queued = accounts.countP fun a => !a.isError
  errors : summary.errors = accounts.countP Account.isError
  attempted : summary.queued + summary.errors = min (limit.getD summary.eligible) summary.eligible
  remaining : summary.queued ≤ summary.eligible ∧
    summary.remaining = summary.eligible - summary.queued
  confined : b.Confined (batchOf limit failed) b'
  restarted : ∀ a ∈ accounts, a.isError = false → b'.Restarted a.id

/-- The account of a bulk recovery holds, whatever accesses of the store and the queue fail. -/
theorem retryFailed_accounted {history : Queue.History} (once : b.store.ids.Nodup)
    (reached : Queue.empty.Runs history b.queue)
    (course : (retryFailed limit).Goes .faltering b conv (.done (.ok summary)) b') :
    ∃ failed before accounts, Surroundings.faltering.others b before ∧
      Accounts .faltering accounts before b' ∧
      conv = ⟨.scan (.withStatus .failed), .ok failed⟩ :: accounts.flatMap Account.said ∧
      Accounted limit b failed accounts summary b' := by
  have remaining := retryFailed_remaining course
  obtain ⟨before, failed, accounts, others, scanned, spoken, ids, resets, eligible,
      queued, errors⟩ :=
    retryFailed_accounts course
  refine ⟨failed, before, accounts, others, resets, spoken, ?_⟩
  have untouched : b.Untouched before := others
  obtain ⟨storeUp, queueUp, clock, rfl⟩ := id others
  have keys : b.queue.keys.Nodup := (Queue.kept_of_runs reached).keys
  have taken : (batchOf limit failed).Sublist (failed.map Notification.id) :=
    (List.take_sublist _ _).map _
  have different : (accounts.map Account.id).Nodup := by
    have once : (b.shifted storeUp queueUp clock).store.ids.Nodup := once
    rw [ids]
    exact (Store.nodup_listed once scanned).sublist taken
  have stored : ∀ a ∈ accounts, ∃ old, b.store.find? a.id = some old ∧ old.status = .failed := by
    intro a mem
    have batched : a.id ∈ batchOf limit failed := ids ▸ List.mem_map_of_mem mem
    obtain ⟨old, mem, own⟩ := List.mem_map.mp (taken.subset batched)
    obtain ⟨mem, wasFailed⟩ := (Store.mem_listed scanned).mp mem
    exact ⟨old, own ▸ Store.find?_of_mem once mem, wasFailed⟩
  obtain ⟨confined, restarted⟩ := resets.resets keys different stored
  obtain ⟨_, rfl⟩ := Store.scan_withStatus scanned
  have counted : summary.queued + summary.errors = accounts.length := by
    have parted := List.length_eq_countP_add_countP Account.isError (l := accounts)
    rw [queued, errors, parted, Nat.add_comm]
    simp
  have batched : accounts.length = min (limit.getD summary.eligible) summary.eligible := by
    rw [← List.length_map Account.id, ids, eligible]
    simp [batchOf]
  exact {
    listed := b.store.sorted_perm.filter _
    ordered := (Store.sorted_ascending once).filter _
    batch := ids
    eligible, queued, errors, restarted
    attempted := counted.trans batched
    remaining := ⟨by omega, remaining⟩
    confined := ids ▸ (untouched.confined []).trans confined }

namespace Sample

open Pipeline.Sample (clock choice submission)

def gone (id : Uuid) : Notification :=
  { Notification.create id submission clock with
    status := .failed, attemptCount := 1, errorMessage := some "gone", queuedAt := some clock,
    failedAt := some clock, version := 2 }

def allGone : Backend :=
  ⟨⟨[gone ⟨1#128⟩, gone ⟨2#128⟩, gone ⟨3#128⟩], true⟩,
    Queue.empty.push (.immediate ⟨1#128⟩ 0 clock), clock, 0⟩

def pushed : Queue.History := [⟨.enqueue (.immediate ⟨1#128⟩ 0 clock), .enqueued true⟩]

def partly : Conversation × Prog (Except Error Summary) × Backend :=
  (retryFailed (some 2)).falter choice (queueLost ++ List.replicate 8 (true, true)) allGone

theorem allGone_listed :
    (allGone.shifted true true clock).answer choice (.scan (.withStatus .failed)) =
      some { reply := .ok allGone.store.records, backend := allGone } := by
  have sorted : allGone.store.sorted = allGone.store.records :=
    List.mergeSort_of_pairwise (by decide)
  have scanned : allGone.store.scan (.withStatus .failed) = .ok allGone.store.records := by
    unfold Store.scan
    rw [sorted]
    rfl
  exact congrArg (fun result => some (allGone.reading result)) scanned

end Sample

/-- One of two resets is rolled back, and the notification beyond the limit is left alone. -/
theorem retryFailed_accounted_when_push_refused :
    Sample.allGone.store.ids.Nodup ∧ Queue.empty.Runs Sample.pushed Sample.allGone.queue ∧
      Sample.partly.2.1 = .done (.ok ⟨1, 1, 3, 2⟩) ∧
      Sample.partly.2.2.store.records.map (fun n => (n.id, n.status)) =
        [(⟨1#128⟩, .failed), (⟨2#128⟩, .queued), (⟨3#128⟩, .failed)] ∧
      ∃ failed before accounts, Surroundings.faltering.others Sample.allGone before ∧
        Accounts .faltering accounts before Sample.partly.2.2 ∧
        Sample.partly.1 =
          ⟨.scan (.withStatus .failed), .ok failed⟩ :: accounts.flatMap Account.said ∧
        Accounted (some 2) Sample.allGone failed accounts ⟨1, 1, 3, 2⟩ Sample.partly.2.2 := by
  have once : Sample.allGone.store.ids.Nodup := by decide
  have replayed : Queue.empty.replay (Sample.pushed.map Queue.Exchange.access) =
      (Sample.pushed, Sample.allGone.queue) := rfl
  have reached : Queue.empty.Runs Sample.pushed Sample.allGone.queue :=
    Queue.runs_of_replay replayed
  have first : Sample.partly = _ :=
    falter_ask (Sample.queueLost ++ List.replicate 8 (true, true)).tail Sample.allGone_listed
  have ended : Sample.partly.2.1 = .done (.ok ⟨1, 1, 3, 2⟩) := by
    rw [first]
    with_unfolding_all rfl
  have left : Sample.partly.2.2.store.records.map (fun n => (n.id, n.status)) =
      [(⟨1#128⟩, .failed), (⟨2#128⟩, .queued), (⟨3#128⟩, .failed)] := by
    rw [first]
    with_unfolding_all rfl
  have course := ended ▸ Prog.goes_falter (c := Pipeline.Sample.choice) (retryFailed (some 2))
    (Sample.queueLost ++ List.replicate 8 (true, true)) Sample.allGone
  exact ⟨once, reached, ended, left, retryFailed_accounted once reached course⟩

end Recovery
end Courier
