import Courier.Proofs.ContestedResets
import Courier.Proofs.Finishing
import Courier.Proofs.JobTracking
import Mathlib.Algebra.BigOperators.Fin

namespace Courier

def Operation.isFullRecovery : Operation → Bool
  | .retryFailed none => true
  | _ => false

theorem Operation.eq_of_isFullRecovery (op : Operation) (h : op.isFullRecovery = true) :
    op = .retryFailed none := by
  cases op with
  | retryFailed limit =>
      cases limit with
      | none => rfl
      | some limit => cases h
  | _ => cases h

/-- What had failed is queued, with one job for its first attempt, and everything else is as it
was. -/
structure Backend.Requeued (b b' : Backend) : Prop where
  queued : ∀ id n, b.store.find? id = some n → n.status = .failed → ∃ q,
    b'.store.find? id = some q ∧ q.status = .queued ∧ q.attemptCount = 0 ∧ q.errorMessage = none ∧
      q.version = n.version + 2 ∧ b'.queue.keys.count (id, 0) = 1
  kept : ∀ id, (∀ n, b.store.find? id = some n → n.status ≠ .failed) →
    b'.store.find? id = b.store.find? id

namespace Contest

variable {start : Store} {v : Contest} {id : Uuid}

/-- A recovery ends with a summary, which counts as queued what the call has reset, and no failed
notification is left that nobody has reset. -/
def closing (start : Store) : Protocol.Closing Contest
  | me, .retryFailed none, result, v => ∃ summary : Recovery.Summary, result = .ok summary ∧
      v.Recovered start me [] summary.queued
  | _, _, _, _ => False

theorem stable (start : Store) : protocol.Stable (closing start) := by
  intro me op result v v' closes others
  unfold closing at closes ⊢
  split at closes
  · obtain ⟨summary, ended, recovered⟩ := closes
    exact ⟨summary, ended, recovered.others others⟩
  · exact closes.elim

theorem passes : protocol.Passes :=
  fun v t => ⟨{ v with real := { v.real with clock := t } }, rfl, fun _ => .passed⟩

def opening (b : Backend) : Contest := ⟨b, fun _ => none⟩

theorem sound_opening {b : Backend} (store : b.store.available = true)
    (queue : b.queue.available = true) (keys : b.queue.keys.Nodup) : (opening b).Sound b.store :=
  ⟨store, queue, keys, rfl, fun _ => .untouched rfl rfl⟩

theorem holds_opening {b : Backend} (sound : (opening b).Sound b.store) (me : Nat) :
    (opening b).Holds b.store me ∅ ∅ :=
  ⟨sound, by simp [opening], by simp⟩

def failedIds (s : Store) : Finset Uuid :=
  ((s.records.filter fun n => n.status = .failed).map Notification.id).toFinset

theorem card_failedIds {s : Store} (once : s.ids.Nodup) :
    (failedIds s).card = s.records.countP fun n => n.status = .failed := by
  have sub : ((s.records.filter fun n => n.status = .failed).map Notification.id).Sublist s.ids :=
    List.filter_sublist.map _
  rw [failedIds, List.toFinset_card_of_nodup (once.sublist sub), List.length_map,
    List.countP_eq_length_filter]

theorem mem_failedIds {s : Store} (once : s.ids.Nodup) :
    id ∈ failedIds s ↔ ∃ n, s.find? id = some n ∧ n.status = .failed := by
  simp only [failedIds, List.mem_toFinset, List.mem_map, List.mem_filter, decide_eq_true_eq]
  constructor
  · rintro ⟨n, ⟨mem, failed⟩, rfl⟩
    exact ⟨n, Store.find?_of_mem once mem, failed⟩
  · rintro ⟨n, found, failed⟩
    exact ⟨n, ⟨Store.mem_of_find? found, failed⟩, Store.id_of_find? found⟩

/-- Every notification that had failed is counted by the one call that has reset it. -/
theorem Sound.tally {counts : List Nat} (h : v.Sound start) (once : start.ids.Nodup)
    (resolved : ∀ id, Resolved start id v)
    (known : ∀ id i, v.resetter id = some i → i < counts.length)
    (counted : ∀ i c, counts[i]? = some c → ∃ won : Finset Uuid,
      (∀ id, v.resetter id = some i ↔ id ∈ won) ∧ c = won.card) :
    counts.sum = start.records.countP fun n => n.status = .failed := by
  have fallen : Set.MapsTo v.resetter (failedIds start)
      ((Finset.range counts.length).map .some : Finset (Option Nat)) := by
    intro id mem
    obtain ⟨n, found, failed⟩ := (mem_failedIds once).mp mem
    obtain ⟨i, taken⟩ := Option.ne_none_iff_exists'.mp (resolved id n found failed)
    simp [taken, known id i taken]
  rw [← card_failedIds once, Finset.card_eq_sum_card_fiberwise fallen, Finset.sum_map,
    Finset.sum_range, ← Fin.sum_univ_getElem]
  refine Finset.sum_congr rfl fun i _ => ?_
  obtain ⟨won, own, count⟩ := counted i counts[i.1] (List.getElem?_eq_getElem i.isLt)
  rw [count]
  congr 1
  ext id
  simp only [Finset.mem_filter, ← own id, Function.Embedding.some_apply]
  refine ⟨fun taken => ⟨?_, taken⟩, And.right⟩
  obtain ⟨n, _, found, failed, _⟩ := h.taken taken
  exact (mem_failedIds once).mpr ⟨n, found, failed⟩

theorem Sound.requeued {b : Backend} (h : v.Sound b.store)
    (resolved : ∀ id, Resolved b.store id v)
    (marked : ∀ id i, v.resetter id = some i → ∃ q, v.real.store.find? id = some q ∧
      q.status = .queued) :
    b.Requeued v.real := by
  constructor
  · intro id n found failed
    obtain ⟨i, taken⟩ := Option.ne_none_iff_exists'.mp (resolved id n found failed)
    obtain ⟨q, stored, status⟩ := marked id i taken
    cases h.stage id with
    | untouched free _ => exact nomatch free.symm.trans taken
    | pending _ _ _ now =>
        rw [stored] at now
        cases now
        cases status
    | queued _ known _ now same waits =>
        obtain rfl := Option.some.inj (found.symm.trans known)
        refine ⟨_, now, ?_⟩
        subst same
        refine ⟨rfl, rfl, rfl, rfl, List.count_eq_one_of_mem h.keys ?_⟩
        exact Queue.mem_keys_of_waiting waits
  · intro id unfailed
    cases taken : v.resetter id with
    | none => exact h.same_of_free taken
    | some i =>
        obtain ⟨n, _, found, failed, _⟩ := h.taken taken
        exact absurd failed (unfailed n found)

theorem Sound.none_failed (h : v.Sound start) (once : start.ids.Nodup)
    (resolved : ∀ id, Resolved start id v) : ∀ n ∈ v.real.store.records, n.status ≠ .failed := by
  intro n mem failed
  have found := Store.find?_of_mem (h.ids ▸ once) mem
  obtain ⟨free, known⟩ := h.untouched found failed
  exact resolved n.id n known failed free

end Contest

namespace Pipeline

open Recovery (Summary)

variable {d : Deployment} {allowed : Pipeline → Move → Prop} {clock : Instant} {s t : Pipeline}
  {moves : List Move}

theorem nodup_ids_of_reachable (reached : Reachable d allowed clock s) :
    s.backend.store.ids.Nodup := by
  induction reached with
  | initial => exact List.nodup_nil
  | step _ _ moved ih =>
      cases step_of_step? moved with
      | advance asks answered =>
          rcases Backend.store_of_answer answered with same | ⟨n, inserted⟩ | ⟨n, stored, updated⟩
          · exact same ▸ ih
          · exact Store.nodup_ids_insert ih inserted
          · obtain ⟨_, _, _, _, after⟩ := Store.update_eq_ok updated
            simpa [after] using ih
      | _ => exact ih

variable {b : Backend}

/-- Recoveries of all that has failed keep to what resets may do. -/
theorem followed_of_recoveries (store : b.store.available = true) (queue : b.queue.available = true)
    (keys : b.queue.keys.Nodup)
    (run : (opening b).run? d (timed Operation.isFullRecovery) moves = some t) :
    ∃ v, Contest.protocol.Followed (Contest.closing b.store) (Contest.opening b) t v := by
  have sound := Contest.sound_opening store queue keys
  have complies (me : Nat) (op : Operation) (v : Contest) (may : op.isFullRecovery = true)
      (later : Contest.Later me (Contest.opening b) v) :
      Contest.protocol.Complies me (Contest.closing b.store me op) (op.program d) v := by
    obtain rfl := op.eq_of_isFullRecovery may
    exact Contest.retryFailed_contends ((Contest.holds_opening sound me).later later)
  have opened : Contest.protocol.Followed (Contest.closing b.store) (Contest.opening b) (opening b)
      (Contest.opening b) := ⟨rfl, fun _ _ => .refl, fun _ _ found => nomatch found⟩
  exact followed_of_run (Contest.stable b.store) Contest.passes complies opened run

theorem recovery_of_none (store : t.backend.store.available = true)
    (none_failed : ∀ n ∈ t.backend.store.records, n.status ≠ .failed) (c : Choice) :
    ∃ u, t.run? d (timed Operation.isFullRecovery)
        [.begin (.retryFailed none), .advance t.calls.length c] = some u ∧
      u.calls = t.calls ++ [⟨.retryFailed none, .done (.ok ⟨0, 0, 0, 0⟩)⟩] ∧
      u.backend = t.backend := by
  obtain ⟨listed, scanned⟩ : ∃ listed, t.backend.store.scan (.withStatus .failed) = .ok listed :=
    ⟨_, if_pos store⟩
  have empty : listed = [] := by
    refine List.eq_nil_iff_forall_not_mem.mpr fun n mem => ?_
    obtain ⟨mem, failed⟩ := (Store.mem_listed scanned).mp mem
    exact none_failed n mem failed
  subst empty
  refine ⟨⟨t.backend, t.calls ++ [⟨.retryFailed none, .done (.ok ⟨0, 0, 0, 0⟩)⟩],
    t.past ++ [.began (.retryFailed none),
      .answered t.calls.length (.scan (.withStatus .failed)) (.ok [])]⟩, ?_, rfl, rfl⟩
  simp [run?, timed, step?, begin?, advance?, Past.permits, Operation.isFullRecovery,
    Operation.program,
    Recovery.retryFailed, Service.list, Prog.scan, Prog.quiet, Backend.answer, Backend.perform,
    Backend.reading, scanned]
  rfl

section Ended

variable {v : Contest} {id : Uuid} {i : Nat} {call : Call}
  (h : Contest.protocol.Followed (Contest.closing b.store) (Contest.opening b) t v)
  (sound : (Contest.opening b).Sound b.store)

include h

theorem recovered_of_idle (idle : t.isIdle = true) (found : t.calls[i]? = some call) :
    ∃ summary : Summary, call = ⟨.retryFailed none, .done (.ok summary)⟩ ∧
      v.Recovered b.store i [] summary.queued := by
  obtain ⟨op, result, rfl, closes⟩ := closed_of_idle h idle found
  unfold Contest.closing at closes
  split at closes
  · obtain ⟨summary, rfl, recovered⟩ := closes
    exact ⟨summary, rfl, recovered⟩
  · exact closes.elim

theorem summaries_of_idle (idle : t.isIdle = true) : ∃ summaries : List Summary,
    t.calls = summaries.map fun summary => ⟨.retryFailed none, .done (.ok summary)⟩ := by
  have ended : t.calls ∈ Set.range (List.map fun summary : Summary =>
      (⟨.retryFailed none, .done (.ok summary)⟩ : Call)) := by
    rw [Set.range_list_map]
    intro call mem
    obtain ⟨i, found⟩ := List.mem_iff_getElem?.mp mem
    obtain ⟨summary, rfl, _⟩ := recovered_of_idle h idle found
    exact ⟨summary, rfl⟩
  obtain ⟨summaries, same⟩ := ended
  exact ⟨summaries, same.symm⟩

theorem resolved_of_idle (idle : t.isIdle = true) (made : t.calls ≠ []) (id : Uuid) :
    Contest.Resolved b.store id v := by
  obtain ⟨_, _, _, _, _, resolved⟩ :=
    recovered_of_idle h idle (List.getElem?_eq_getElem (List.length_pos_iff.mpr made))
  exact resolved id List.not_mem_nil

include sound

theorem sound_of_followed : v.Sound b.store :=
  sound.later (h.trace t.calls.length (Nat.le_refl _))

theorem lt_of_resetter (taken : v.resetter id = some i) : i < t.calls.length := by
  by_contra beyond
  have untouched := (Contest.holds_opening sound i).later (h.trace i (Nat.le_of_not_lt beyond))
  simpa using (untouched.own id).mp taken

theorem marked_of_idle (idle : t.isIdle = true) (taken : v.resetter id = some i) :
    ∃ q, v.real.store.find? id = some q ∧ q.status = .queued := by
  have found := List.getElem?_eq_getElem (lt_of_resetter h sound taken)
  obtain ⟨_, _, won, holds, _⟩ := recovered_of_idle h idle found
  exact (holds.done id ((holds.own id).mp taken)).2

end Ended

/-- However many recoveries of all that has failed are made at the same time, with the store and the
queue up and nothing else going on: they can all be brought to their ends, whatever has happened so
far, and when they are over, what they count as queued adds up to what had failed, all of that is
queued once, and a further recovery finds nothing to do. -/
theorem recoveries_requeue_once (reached : Reachable d (fun s m => anything s m) clock s)
    (store : s.backend.store.available = true) (queue : s.backend.queue.available = true)
    (run : (opening s.backend).run? d (timed Operation.isFullRecovery) moves = some t)
    (made : t.calls ≠ []) :
    (∃ more u, t.run? d (timed Operation.isFullRecovery) more = some u ∧
      u.calls.length = t.calls.length ∧ u.isIdle = true) ∧
    (t.isIdle = true →
      (∃ summaries : List Summary,
        t.calls = summaries.map (fun summary => ⟨.retryFailed none, .done (.ok summary)⟩) ∧
        (summaries.map Summary.queued).sum =
          s.backend.store.records.countP fun n => n.status = .failed) ∧
      s.backend.Requeued t.backend ∧
      ∀ c, ∃ u, t.run? d (timed Operation.isFullRecovery)
          [.begin (.retryFailed none), .advance t.calls.length c] = some u ∧
        u.calls = t.calls ++ [⟨.retryFailed none, .done (.ok ⟨0, 0, 0, 0⟩)⟩] ∧
        u.backend = t.backend) := by
  refine ⟨run_can_end (fun op may => ?_) run, fun idle => ?_⟩
  · obtain rfl := op.eq_of_isFullRecovery may
    exact Recovery.retryFailed_served none
  have keys := (tracked_of_reachable reached).keys
  have once := nodup_ids_of_reachable reached
  have opened := Contest.sound_opening store queue keys
  obtain ⟨v, h⟩ := followed_of_recoveries store queue keys run
  have sound := sound_of_followed h opened
  have resolved := resolved_of_idle h idle made
  refine ⟨?_, ?_, ?_⟩
  · obtain ⟨summaries, calls⟩ := summaries_of_idle h idle
    refine ⟨summaries, calls, sound.tally once resolved ?_ ?_⟩
    · intro id i taken
      simpa [calls] using lt_of_resetter h opened taken
    · intro i c counted
      rw [List.getElem?_map] at counted
      obtain ⟨summary, own, rfl⟩ := Option.map_eq_some_iff.mp counted
      have found : t.calls[i]? =
          some ⟨.retryFailed none, .done (.ok summary)⟩ := by simp [calls, own]
      obtain ⟨_, ended, won, holds, counted, _⟩ := recovered_of_idle h idle found
      cases ended
      exact ⟨won, holds.own, counted⟩
  · rw [← h.real]
    exact sound.requeued resolved fun id i taken => marked_of_idle h opened idle taken
  · have real : v.real = t.backend := h.real
    refine recovery_of_none (real ▸ sound.storeUp) ?_
    exact real ▸ sound.none_failed once resolved

namespace Sample

/-- The notification is created, and its only attempt fails for good. -/
def failing : List Move :=
  creation ++ .begin (.record id 0 (.permanent "gone")) :: [1, 1, 1].map advance

/-- Two recoveries list the failed notification and read its record before either of them writes it.
The second one writes first. -/
def contended : List Move :=
  [.begin (.retryFailed none), .begin (.retryFailed none)] ++
    [0, 1, 0, 1, 0, 1, 1, 0, 0, 1, 1, 1, 1, 1].map advance

end Sample

/-- The recovery that comes second counts an error, the other one has queued the notification, and
there is one job for it. -/
theorem requeued_once_when_contended : ∃ s t,
    (initial Sample.clock).run? Sample.deployment anything Sample.failing = some s ∧
      (opening s.backend).run? Sample.deployment (timed Operation.isFullRecovery) Sample.contended =
        some t ∧
      t.calls = [⟨.retryFailed none, .done (.ok ⟨0, 1, 1, 1⟩)⟩,
        ⟨.retryFailed none, .done (.ok ⟨1, 0, 1, 0⟩)⟩] ∧
      s.backend.Requeued t.backend := by
  have run : (((initial Sample.clock).run? Sample.deployment anything Sample.failing).bind fun s =>
      ((opening s.backend).run? Sample.deployment (timed Operation.isFullRecovery)
        Sample.contended).map fun t =>
          (s.backend.store.available, s.backend.queue.available, t.calls)) =
      some (true, true, [⟨.retryFailed none, .done (.ok ⟨0, 1, 1, 1⟩)⟩,
        ⟨.retryFailed none, .done (.ok ⟨1, 0, 1, 0⟩)⟩]) := by
    with_unfolding_all rfl
  obtain ⟨s, run, later⟩ := Option.bind_eq_some_iff.mp run
  obtain ⟨t, recovered, same⟩ := Option.map_eq_some_iff.mp later
  simp only [Prod.mk.injEq] at same
  obtain ⟨store, queue, calls⟩ := same
  have idle : t.isIdle = true := by simp [isIdle, Call.isOver, calls]
  have made : t.calls ≠ [] := by simp [calls]
  have reached := Reachable.initial.run run
  obtain ⟨_, concluded⟩ := recoveries_requeue_once reached store queue recovered made
  obtain ⟨_, requeued, _⟩ := concluded idle
  exact ⟨s, t, run, recovered, calls, requeued⟩

end Pipeline
end Courier
