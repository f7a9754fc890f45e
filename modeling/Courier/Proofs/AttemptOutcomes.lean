import Courier.Proofs.Transitions

/-!
Reports that race for one notification. As long as it is not reset, its versions alone tell which
attempt each write was about: the first version is pending, the second one queued, and every later
one is the outcome of the next attempt. So each attempt has one outcome, whoever else reported on
it.
-/
namespace Courier

/-- The attempt that the operation reports on, if that is all it does. -/
def Operation.attempt? : Operation → Option Nat
  | .record _ attempt _ => some attempt
  | _ => none

def Service.Recorded.isFinal : Service.Recorded → Bool
  | .sent _ | .failed _ => true
  | _ => false

namespace Past

/-- The reports that were applied to a notification, in the order of their writes: the calls, each
with the attempt that it reported on. -/
def applied (past : Past) (id : Uuid) : List (Nat × Nat) :=
  (past.writesTo id).filterMap fun w =>
    ((past.operations[w.1]?).bind Operation.attempt?).map fun attempt => (w.1, attempt)

def NeverReset (past : Past) (id : Uuid) : Prop :=
  ∀ (i : Nat) x y, (past.versions id)[i]? = some x → (past.versions id)[i + 1]? = some y →
    ¬(x.status = .failed ∧ y.status = .pending)

/-- The result holds the record that the call has written, which is what its outcome made of the
version that was waiting for that attempt. -/
inductive Produced (policy : Retry.Policy) (past : Past) (call : Nat) (id : Uuid) (attempt : Nat)
    (outcome : Outcome) : Service.Recorded → Prop
  | intro {cur next : Notification} {time : Instant} {wrap : Notification → Service.Recorded}
      (known : cur ∈ past.versions id) (queued : cur.status = .queued)
      (current : cur.attemptCount = attempt)
      (reported : Service.Reported policy cur time outcome next wrap)
      (wrote : (call, Store.merged cur next) ∈ past.writesTo id) :
      Produced policy past call id attempt outcome (wrap (Store.merged cur next))

variable {policy : Retry.Policy} {past : Past} {x y n : Notification} {id : Uuid}
  {i j call attempt : Nat} {outcome : Outcome} {r : Service.Recorded}

theorem Rewrite.reports {op : Operation} {next : Notification} {time : Instant}
    (h : past.Rewrite policy op x time next) (queued : x.status = .queued) :
    ∃ outcome, op.Reports x.id x.attemptCount outcome := by
  cases h with
  | queue able pending backed => exact nomatch pending.symm.trans queued
  | report reports _ reported job => exact ⟨_, reports⟩
  | reset able failed => exact nomatch failed.symm.trans queued
  | restore able known wasFailed replaced same reset => rw [reset] at queued; cases queued

theorem Rewrite.able {op : Operation} {next : Notification} {time : Instant}
    (h : past.Rewrite policy op x time next) (pending : x.status = .pending) :
    op.onlyReports = false := by
  cases h with
  | queue able _ _ => exact able
  | report reports queued reported job => exact nomatch queued.symm.trans pending
  | reset able _ => exact able
  | restore able _ _ _ _ _ => exact able

theorem filterMap_eq_mapIdx {α β : Type} {f : α → Option β} {g : Nat → α → β} {l : List α}
    (h : ∀ i a, l[i]? = some a → f a = some (g i a)) : l.filterMap f = l.mapIdx g := by
  induction l generalizing g with
  | nil => rfl
  | cons a rest ih =>
      have onward : rest.filterMap f = rest.mapIdx fun i => g (i + 1) :=
        ih fun i b found => h (i + 1) b found
      rw [List.filterMap_cons_some (h 0 a rfl), onward, List.mapIdx_cons]

/-- An applied report has read the very version that it replaced. -/
theorem Accounted.produced (h : past.Accounted policy)
    (applied : past.Applied policy call id attempt outcome r) :
    past.Produced policy call id attempt outcome r := by
  cases applied with
  | @intro cur old next time wrap seen own queued current reported replaced same wrote =>
      subst own
      obtain rfl := h.eq_of_version_eq replaced seen.known same
      refine .intro seen.known queued current reported (List.mem_filter.mpr ⟨wrote, ?_⟩)
      exact decide_eq_true reported.id_eq

theorem Produced.terminal (produced : past.Produced policy call id attempt outcome r)
    (final : r.isFinal = true) : r.notification.status.isTerminal = true := by
  cases produced with
  | intro known queued current reported wrote =>
      cases reported with
      | sent => rfl
      | refused => rfl
      | exhausted spent => rfl
      | retried left decided => cases final

section NeverReset

variable (h : past.Accounted policy) (positive : 1 ≤ policy.maxAttempts)
  (never : past.NeverReset id)

include h positive never

theorem Accounted.counted (found : (past.versions id)[i]? = some x) :
    (i = 0 → x.status = .pending ∧ x.attemptCount = 0) ∧
      (1 ≤ i → x.status ≠ .pending ∧ (x.status = .queued → x.attemptCount + 1 = i)) := by
  induction i generalizing x with
  | zero =>
      obtain ⟨call, wrote⟩ := getElem?_versions.mp found
      obtain ⟨op, asker, able, submitted⟩ := (h id).first wrote
      cases submitted
      exact ⟨fun _ => ⟨rfl, rfl⟩, fun later => absurd later (by omega)⟩
  | succ i ih =>
      refine ⟨fun first => absurd first (by omega), fun _ => ?_⟩
      obtain ⟨earlier, before⟩ := exists_before found
      obtain ⟨first, later⟩ := ih before
      obtain ⟨_, moved⟩ := h.transition positive before found
      have notFirst (other : earlier.status ≠ .pending) : 1 ≤ i := by
        refine Nat.one_le_iff_ne_zero.mpr fun zero => other (first zero).1
      cases moved with
      | start pending queued kept =>
          have zero : i = 0 := by
            refine Nat.eq_zero_of_not_pos fun positive => (later positive).1 pending
          have fresh := (first zero).2
          exact ⟨fun same => (nomatch queued.symm.trans same), fun _ => by omega⟩
      | retry queued again counted =>
          have place := notFirst (fun same => nomatch queued.symm.trans same)
          have counts := (later place).2 queued
          exact ⟨fun same => (nomatch again.symm.trans same), fun _ => by omega⟩
      | deliver queued sent counted =>
          exact ⟨fun same => (nomatch sent.symm.trans same),
            fun same => (nomatch sent.symm.trans same)⟩
      | fail queued failed =>
          exact ⟨fun same => (nomatch failed.symm.trans same),
            fun same => (nomatch failed.symm.trans same)⟩
      | reset failed pending fresh => exact absurd ⟨failed, pending⟩ (never i _ _ before found)
      | restore resetFrom wasFailed pending restored =>
          have zero : i = 0 := by
            refine Nat.eq_zero_of_not_pos fun positive => (later positive).1 pending
          subst zero
          cases resetFrom

theorem Accounted.queued_of_next (place : 1 ≤ i) (first : (past.versions id)[i]? = some x)
    (second : (past.versions id)[i + 1]? = some y) :
    x.status = .queued ∧ x.attemptCount + 1 = i := by
  obtain ⟨_, later⟩ := h.counted positive never first
  obtain ⟨notPending, counted⟩ := later place
  obtain ⟨_, moved⟩ := h.transition positive first second
  cases moved with
  | start pending queued kept => exact absurd pending notPending
  | retry queued again _ => exact ⟨queued, counted queued⟩
  | deliver queued sent _ => exact ⟨queued, counted queued⟩
  | fail queued failed => exact ⟨queued, counted queued⟩
  | reset failed pending fresh => exact absurd ⟨failed, pending⟩ (never i x y first second)
  | restore resetFrom wasFailed pending restored => exact absurd pending notPending

/-- The first two versions are not due to reports, and each later one is due to the report of the
next attempt. -/
theorem Accounted.writer (wrote : (past.writesTo id)[j]? = some (call, y)) :
    ∃ op, past.operations[call]? = some op ∧ (j < 2 → op.onlyReports = false) ∧
      (2 ≤ j → ∃ outcome, op.Reports id (j - 2) outcome) := by
  cases j with
  | zero =>
      obtain ⟨op, asker, able, _⟩ := (h id).first wrote
      exact ⟨op, asker, fun _ => able, fun later => absurd later (by omega)⟩
  | succ i =>
      obtain ⟨⟨earlier, x⟩, before⟩ := exists_before wrote
      have first := getElem?_versions.mpr ⟨earlier, before⟩
      have second := getElem?_versions.mpr ⟨call, wrote⟩
      have rewrote := (h id).rewrote before wrote
      cases rewrote with
      | @intro op next time asker seen rewrite =>
          refine ⟨op, asker, fun early => ?_, fun later => ?_⟩
          · obtain rfl : i = 0 := by omega
            exact rewrite.able ((h.counted positive never first).1 rfl).1
          · obtain ⟨queued, counted⟩ := h.queued_of_next positive never (by omega) first second
            obtain ⟨outcome, reports⟩ := rewrite.reports queued
            rw [id_of_mem_versions (List.mem_of_getElem? first)] at reports
            have place : x.attemptCount = i + 1 - 2 := by omega
            rw [place] at reports
            exact ⟨outcome, reports⟩

theorem Accounted.last_of_terminal (place : 1 ≤ i) (found : (past.versions id)[i]? = some x)
    (terminal : x.status.isTerminal = true) : i + 1 = (past.versions id).length := by
  by_cases last : i + 1 = (past.versions id).length
  · exact last
  · obtain ⟨y, second⟩ := exists_next found last
    obtain ⟨queued, _⟩ := h.queued_of_next positive never place found second
    rw [queued] at terminal
    cases terminal

section Services

-- Nobody but the calls that do nothing else reports: what a worker does is left out.
variable (services : ∀ op ∈ past.operations, ∀ lease, op ≠ .process lease)

include services

theorem Accounted.attempt?_writer (wrote : (past.writesTo id)[j]? = some (call, y)) :
    (past.operations[call]?).bind Operation.attempt? = if j < 2 then none else some (j - 2) := by
  obtain ⟨op, asker, early, later⟩ := h.writer positive never wrote
  have service := services op (List.mem_of_getElem? asker)
  rw [asker, Option.bind_some]
  split
  · rename_i first
    have able := early first
    cases op with
    | record id attempt outcome => cases able
    | _ => rfl
  · rename_i after
    obtain ⟨outcome, reports⟩ := later (by omega)
    cases op with
    | record id attempt outcome =>
        obtain ⟨_, same, _⟩ := reports
        rw [Operation.attempt?, same]
    | process lease => exact absurd rfl (service lease)
    | _ => cases reports

theorem Accounted.applied_eq :
    past.applied id = ((past.writesTo id).drop 2).mapIdx fun i w => (w.1, i) := by
  have attempts {j : Nat} {w : Nat × Notification} (wrote : (past.writesTo id)[j]? = some w) :=
    h.attempt?_writer positive never services wrote
  rw [applied, ← List.take_append_drop 2 (past.writesTo id), List.filterMap_append,
    List.take_append_drop]
  have early : ((past.writesTo id).take 2).filterMap (fun w =>
      ((past.operations[w.1]?).bind Operation.attempt?).map fun attempt => (w.1, attempt)) =
        [] := by
    refine List.filterMap_eq_nil_iff.mpr fun w mem => ?_
    obtain ⟨j, found⟩ := List.getElem?_of_mem mem
    rw [List.getElem?_take] at found
    split at found
    · rename_i first
      rw [attempts found, if_pos first, Option.map_none]
    · cases found
  rw [early, List.nil_append]
  refine filterMap_eq_mapIdx fun j w found => ?_
  rw [List.getElem?_drop] at found
  rw [attempts found, if_neg (by omega), Nat.add_sub_cancel_left, Option.map_some]

theorem Accounted.length_applied :
    (past.applied id).length = (past.versions id).length - 2 := by
  rw [h.applied_eq positive never services, List.length_mapIdx, List.length_drop, versions,
    List.length_map]

theorem Accounted.attempts_applied :
    (past.applied id).map Prod.snd = List.range (past.applied id).length := by
  rw [h.applied_eq positive never services, List.length_mapIdx]
  refine List.ext_getElem (by simp) fun i first second => ?_
  simp

theorem Accounted.length_applied_le : (past.applied id).length ≤ policy.maxAttempts := by
  have length := h.length_applied positive never services
  by_cases some : 2 < (past.versions id).length
  · have first := List.getElem?_eq_getElem
      (show (past.versions id).length - 2 < (past.versions id).length by omega)
    have second := List.getElem?_eq_getElem
      (show (past.versions id).length - 2 + 1 < (past.versions id).length by omega)
    obtain ⟨queued, counted⟩ := h.queued_of_next positive never (by omega) first second
    have fits := (h.wellFormed positive (List.mem_of_getElem? first)).fits
    simp only [Notification.FitsStatus, queued] at fits
    have left := fits.1
    omega
  · omega

theorem Accounted.place_of_produced
    (asker : past.operations[call]? = some (.record id attempt outcome))
    (produced : past.Produced policy call id attempt outcome r) :
    (past.writesTo id)[attempt + 2]? = some (call, r.notification) := by
  cases produced with
  | @intro cur next time wrap known queued current reported wrote =>
      obtain ⟨j, found⟩ := List.getElem?_of_mem wrote
      have writer := h.attempt?_writer positive never services found
      rw [asker, Option.bind_some, Operation.attempt?] at writer
      split at writer
      · cases writer
      · have place : attempt = j - 2 := Option.some.inj writer
        obtain rfl : j = attempt + 2 := by omega
        rw [found]
        cases reported <;> rfl

end Services
end NeverReset

end Past

namespace Pipeline

variable {d : Deployment} {clock : Instant} {s : Pipeline} {id : Uuid}

/-- A call that reported on an attempt has come to an end with that result. -/
def Returned (s : Pipeline) (call : Nat) (id : Uuid) (attempt : Nat) (outcome : Outcome)
    (r : Service.Recorded) : Prop :=
  s.calls[call]? = some ⟨.record id attempt outcome, .done (.ok r)⟩

/-- What any number of reports on a notification come to: the applied ones are about one attempt
after another and no more than the budget allows, each attempt has at most one of them, delivery
ends at most once and with the last of them, and each returns what its own outcome produced. -/
structure Settled (d : Deployment) (s : Pipeline) (id : Uuid) : Prop where
  consecutive : (s.past.applied id).map Prod.snd = List.range (s.past.applied id).length
  bounded : (s.past.applied id).length ≤ d.policy.maxAttempts
  produced : ∀ {call attempt outcome r}, s.Returned call id attempt outcome r →
    r.isStale = false → (call, attempt) ∈ s.past.applied id ∧
      s.past.Produced d.policy call id attempt outcome r
  unique : ∀ {c c' attempt o o' r r'}, s.Returned c id attempt o r →
    s.Returned c' id attempt o' r' → r.isStale = false → r'.isStale = false → c = c'
  endsOnce : ∀ {c c' a a' o o' r r'}, s.Returned c id a o r → s.Returned c' id a' o' r' →
    r.isFinal = true → r'.isFinal = true → c = c'
  endsLast : ∀ {call attempt outcome r}, s.Returned call id attempt outcome r →
    r.isFinal = true → (s.past.applied id).getLast? = some (call, attempt)

/-- However reports on a notification meet that is never reset, among any other calls of the
service, each attempt has one outcome. -/
theorem reports_settled (positive : 1 ≤ d.policy.maxAttempts)
    (reached : Reachable d (fun s m => services s m) clock s) (never : s.past.NeverReset id) :
    s.Settled d id := by
  have accounted := accounted_of_reachable reached
  have keeping := keeping_of_reachable (contract_kept d) reached
  have services : ∀ op ∈ s.past.operations, ∀ lease, op ≠ .process lease := by
    refine operations_of_reachable (fun _ op may lease same => ?_) reached
    subst same
    cases may
  have asker {call attempt outcome r} (returned : s.Returned call id attempt outcome r) :
      s.past.operations[call]? = some (.record id attempt outcome) := by
    rw [keeping.operations, List.getElem?_map, returned, Option.map_some]
  have produced {call attempt outcome r} (returned : s.Returned call id attempt outcome r)
      (fresh : r.isStale = false) : s.past.Produced d.policy call id attempt outcome r :=
    accounted.produced (keeping.outcome returned r rfl fresh)
  have place {call attempt outcome r} (returned : s.Returned call id attempt outcome r)
      (fresh : r.isStale = false) :
      (s.past.writesTo id)[attempt + 2]? = some (call, r.notification) :=
    accounted.place_of_produced positive never services (asker returned) (produced returned fresh)
  have fresh_of_final {r : Service.Recorded} (final : r.isFinal = true) : r.isStale = false := by
    cases r <;> first | rfl | cases final
  have last {call attempt outcome r} (returned : s.Returned call id attempt outcome r)
      (final : r.isFinal = true) : attempt + 3 = (s.past.versions id).length := by
    have fresh := fresh_of_final final
    have found := Past.getElem?_versions.mpr ⟨call, place returned fresh⟩
    exact accounted.last_of_terminal positive never (by omega) found
      ((produced returned fresh).terminal final)
  have entry {call attempt outcome r} (returned : s.Returned call id attempt outcome r)
      (fresh : r.isStale = false) : (s.past.applied id)[attempt]? = some (call, attempt) := by
    rw [accounted.applied_eq positive never services, List.getElem?_mapIdx, List.getElem?_drop,
      Nat.add_comm, place returned fresh, Option.map_some]
  refine ⟨accounted.attempts_applied positive never services,
    accounted.length_applied_le positive never services, ?_, ?_, ?_, ?_⟩
  · intro call attempt outcome r returned fresh
    exact ⟨List.mem_of_getElem? (entry returned fresh), produced returned fresh⟩
  · intro c c' attempt o o' r r' first second fresh fresh'
    have same := (place first fresh).symm.trans (place second fresh')
    exact congrArg Prod.fst (Option.some.inj same)
  · intro c c' a a' o o' r r' first second final final'
    have ended := last first final
    have ended' := last second final'
    obtain rfl : a = a' := by omega
    have same := (place first (fresh_of_final final)).symm.trans
      (place second (fresh_of_final final'))
    exact congrArg Prod.fst (Option.some.inj same)
  · intro call attempt outcome r returned final
    have length := accounted.length_applied positive never services
    have ended := last returned final
    have place : (s.past.applied id).length - 1 = attempt := by omega
    rw [List.getLast?_eq_getElem?, place]
    exact entry returned (fresh_of_final final)

/-- Of three reports the one that loses its write is stale, and the other two settle both
attempts. -/
theorem reports_settled_after_race : ∃ s,
    (initial Sample.clock).run? Sample.deployment services Sample.race = some s ∧
      s.past.applied Sample.id = [(1, 0), (3, 1)] ∧ 1 ≤ Sample.deployment.policy.maxAttempts ∧
      Reachable Sample.deployment (fun s m => services s m) Sample.clock s ∧
      s.past.NeverReset Sample.id ∧ s.Settled Sample.deployment Sample.id := by
  have run : ∃ s, (initial Sample.clock).run? Sample.deployment services Sample.race = some s ∧
      s.past.applied Sample.id = [(1, 0), (3, 1)] ∧
      (s.past.versions Sample.id).all (fun n => n.status != .failed) = true := ⟨_, rfl, rfl, rfl⟩
  obtain ⟨s, run, applied, noFailure⟩ := run
  have reached := Reachable.initial.run run
  have never : s.past.NeverReset Sample.id := by
    intro i x y first _ ⟨failed, _⟩
    have known := List.all_eq_true.mp noFailure x (List.mem_of_getElem? first)
    simp [failed] at known
  exact ⟨s, run, applied, by decide, reached, never, reports_settled (by decide) reached never⟩

end Pipeline
end Courier
