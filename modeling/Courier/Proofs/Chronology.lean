import Courier.Proofs.LeapSeconds
import Courier.Proofs.RecordInvariant

/-!
The times in a record, under a clock that never goes back. A version is stamped with a reading of
the clock that was taken after the version before it had been stored, so the stamps ascend, and the
times that a record keeps are in the order in which they came about. Their differences are what the
averages of a report are made of; a leap second at the end of a day is the one thing that can make
such a difference negative.
-/
namespace Courier

namespace Instant

variable {a b : Instant}

/-- From the leap second at the end of a day to a smaller fraction of the second that follows. -/
def AcrossMidnight (earlier later : Instant) : Prop :=
  earlier.second % 86400 = 86399 ∧ later.second = earlier.second + 1 ∧
    later.nano + 1000000000 < earlier.nano

/-- The time between two instants is negative only where a leap second is not counted, since the
second of the day starts again from zero. -/
theorem since_neg_iff (order : a ≤ b) : b.since a < 0 ↔ a.AcrossMidnight b := by
  have seconds := second_le_of_le order
  have nanos := nano_le_of_le order
  have ha := a.nano_lt
  have leap := b.leap_second
  unfold AcrossMidnight since secondOfDay
  dsimp only
  split
  · omega
  · split <;> omega

end Instant

namespace Notification

/-- The times that are set are in the order in which they come about, and none of them is after
`time`. -/
structure Until (n : Notification) (time : Instant) : Prop where
  created : n.createdAt ≤ time
  queued : ∀ t, n.queuedAt = some t → n.createdAt ≤ t ∧ t ≤ time
  sent : ∀ t, n.sentAt = some t → n.createdAt ≤ t ∧ t ≤ time
  queuedFirst : ∀ q t, n.queuedAt = some q → n.sentAt = some t → q ≤ t
  failed : ∀ t, n.failedAt = some t → n.createdAt ≤ t ∧ t ≤ time

/-- All that a record tells of the past came about before it was written, and what is to come comes
later. -/
structure InOrder (n : Notification) : Prop where
  times : n.Until n.updatedAt
  retry : ∀ t, n.nextRetryAt = some t → n.updatedAt ≤ t

/-- Times that have no meaning in the status are not set. -/
structure Cleared (n : Notification) : Prop where
  pending : n.status = .pending → n.sentAt = none ∧ n.nextRetryAt = none
  failed : n.status = .failed → n.nextRetryAt = none

variable {n cur : Notification} {time later : Instant}

theorem Until.mono (h : n.Until time) (order : time ≤ later) : n.Until later where
  created := Instant.le_trans h.created order
  queued t set := (h.queued t set).imp_right fun upTo => Instant.le_trans upTo order
  sent t set := (h.sent t set).imp_right fun upTo => Instant.le_trans upTo order
  queuedFirst := h.queuedFirst
  failed t set := (h.failed t set).imp_right fun upTo => Instant.le_trans upTo order

theorem inOrder_create (id : Uuid) (s : Submission) (time : Instant) :
    (Notification.create id s time).InOrder where
  times := ⟨Instant.le_refl _, fun _ set => (nomatch set), fun _ set => (nomatch set),
    fun _ _ set => (nomatch set), fun _ set => (nomatch set)⟩
  retry _ set := nomatch set

theorem cleared_create (id : Uuid) (s : Submission) (time : Instant) :
    (Notification.create id s time).Cleared := ⟨fun _ => ⟨rfl, rfl⟩, fun _ => rfl⟩

/-- A pending record has not been sent, so that queueing it cannot come too late. -/
theorem Until.queuedFrom (h : cur.Until time) (cleared : cur.Cleared)
    (pending : cur.status = .pending) :
    (cur.queuedFrom time).InOrder := by
  obtain ⟨unsent, noRetry⟩ := cleared.pending pending
  refine ⟨⟨h.created, ?_, h.sent, ?_, h.failed⟩, ?_⟩
  · rintro _ ⟨⟩
    exact ⟨h.created, Instant.le_refl _⟩
  · intro q t _ sent
    exact nomatch unsent.symm.trans sent
  · intro t retry
    exact nomatch noRetry.symm.trans retry

theorem Until.resetAt (h : cur.Until time) : (cur.resetAt time).InOrder where
  times := ⟨h.created, fun _ set => (nomatch set), fun _ set => (nomatch set),
    fun _ _ set => (nomatch set), fun _ set => (nomatch set)⟩
  retry _ set := nomatch set

theorem Until.failedWith (h : cur.Until time) (message : String) :
    (cur.failedWith time message).Until time where
  created := h.created
  queued := h.queued
  sent _ set := nomatch set
  queuedFirst _ _ _ set := nomatch set
  failed := by
    rintro _ ⟨⟩
    exact ⟨h.created, Instant.le_refl _⟩

theorem InOrder.merged {old : Notification} (h : n.InOrder) (same : n.createdAt = old.createdAt) :
    (Store.merged old n).InOrder := by
  obtain ⟨⟨created, queued, sent, queuedFirst, failed⟩, retry⟩ := h
  rw [same] at created queued sent failed
  exact ⟨⟨created, queued, sent, queuedFirst, failed⟩, retry⟩

theorem Cleared.merged (h : n.Cleared) (old : Notification) : (Store.merged old n).Cleared :=
  ⟨h.pending, h.failed⟩

end Notification

open Notification (Until InOrder Cleared)

theorem Retry.Policy.le_of_decide? {p : Policy} {failures extra : Nat} {now next : Instant}
    {delay : Duration} (decided : p.decide? failures extra now = some (.retryAt delay next)) :
    now ≤ next := by
  unfold decide? at decided
  split at decided
  · cases decided
  · split at decided
    · cases decided
    · obtain ⟨_, added, same⟩ := Option.map_eq_some_iff.mp decided
      cases same
      exact Instant.le_of_add? added

variable {policy : Retry.Policy} {op : Operation} {past before : Past}
  {cur next n x y : Notification} {time : Instant} {id : Uuid}

theorem Service.Reported.inOrder {outcome : Outcome} {wrap : Notification → Service.Recorded}
    (h : Service.Reported policy cur time outcome next wrap) (upTo : cur.Until time) :
    next.InOrder := by
  -- the number of attempts has no part in the order of times
  have counted (attempts : Nat) :
      ({ Service.tried policy cur time with attemptCount := attempts } : Notification).Until time :=
    ⟨upTo.created, upTo.queued, upTo.sent, upTo.queuedFirst, upTo.failed⟩
  cases h with
  | sent =>
      refine ⟨⟨upTo.created, upTo.queued, ?_, ?_, fun _ set => (nomatch set)⟩,
        fun _ set => (nomatch set)⟩
      · rintro _ ⟨⟩
        exact ⟨upTo.created, Instant.le_refl _⟩
      · rintro q _ queued ⟨⟩
        exact (upTo.queued q queued).2
  | refused => exact ⟨(counted _).failedWith _, fun _ set => (nomatch set)⟩
  | exhausted spent => exact ⟨(counted _).failedWith _, fun _ set => (nomatch set)⟩
  | retried left decided =>
      refine ⟨⟨upTo.created, upTo.queued, upTo.sent, upTo.queuedFirst, upTo.failed⟩, ?_⟩
      rintro _ ⟨⟩
      exact Retry.Policy.le_of_decide? decided

theorem Service.Reported.cleared {outcome : Outcome} {wrap : Notification → Service.Recorded}
    (h : Service.Reported policy cur time outcome next wrap) (queued : cur.status = .queued) :
    next.Cleared := by
  cases h with
  | sent => exact ⟨fun pending => (nomatch pending), fun failed => (nomatch failed)⟩
  | refused => exact ⟨fun pending => (nomatch pending), fun _ => rfl⟩
  | exhausted spent => exact ⟨fun pending => (nomatch pending), fun _ => rfl⟩
  | retried left decided =>
      constructor
      · intro pending
        exact nomatch queued.symm.trans pending
      · intro failed
        exact nomatch queued.symm.trans failed

def Happening.reading? : Happening → Option Instant
  | answered _ .now time => some time
  | _ => none

namespace Past

def readings (past : Past) : List Instant := past.filterMap Happening.reading?

theorem readings_append (past more : Past) :
    (past ++ more).readings = past.readings ++ more.readings :=
  List.filterMap_append

theorem mem_readings {call : Nat} (read : .answered call .now time ∈ past) : time ∈ past.readings :=
  List.mem_filterMap.mpr ⟨_, read, rfl⟩

theorem Lawful.of_prefix {c : Contract} (h : past.Lawful c) (grown : before <+: past) :
    before.Lawful c := by
  induction h with
  | nil =>
      obtain rfl := List.prefix_nil.mp grown
      exact .nil
  | other lawful other ih =>
      rcases List.prefix_concat_iff.mp grown with rfl | earlier
      · exact .other lawful other
      · exact ih earlier
  | answered lawful asker warrant truth ih =>
      rcases List.prefix_concat_iff.mp grown with rfl | earlier
      · exact .answered lawful asker warrant truth
      · exact ih earlier

theorem Rewrite.updatedAt_eq (h : past.Rewrite policy op cur time next) :
    next.updatedAt = time := by
  cases h with
  | queue able pending backed => rfl
  | report reports queued reported job => cases reported <;> rfl
  | reset able failed => rfl
  | restore able known wasFailed replaced same reset => rfl

theorem Accounted.updatedAt_mem (h : past.Accounted policy) (known : n ∈ past.versions id) :
    n.updatedAt ∈ past.readings := by
  obtain ⟨i, found⟩ := List.getElem?_of_mem known
  rcases h.made found with submitted | ⟨_, x, call, _, _, rewrote⟩
  · cases submitted with
    | create recipient payload read => exact mem_readings read
  · cases rewrote with
    | intro asker seen rewrite =>
        obtain ⟨before, reader, read, _⟩ := seen
        have stamp := rewrite.updatedAt_eq
        rw [← stamp] at read
        exact mem_readings (read.subset (List.mem_append_right _ List.mem_cons_self))

theorem Seen.updatedAt_le (seen : past.Seen cur time) (lawful : past.Lawful (contract policy))
    (ascending : past.readings.Pairwise (· ≤ ·)) : cur.updatedAt ≤ time := by
  obtain ⟨before, call, read, known⟩ := seen
  have earlier : before <+: past := (List.prefix_append _ _).trans read
  have stamped := (accounted_of_lawful (lawful.of_prefix earlier)).updatedAt_mem known
  obtain ⟨more, rfl⟩ := read
  rw [readings_append, readings_append] at ascending
  exact (List.pairwise_append.mp (List.pairwise_append.mp ascending).1).2.2 _ stamped _
    (mem_readings List.mem_cons_self)

theorem Accounted.updatedAt_le (h : past.Accounted policy)
    (stamped : ∀ cur time, past.Seen cur time → cur.updatedAt ≤ time) (hx : x ∈ past.versions id)
    (hy : y ∈ past.versions id) (order : x.version ≤ y.version) : x.updatedAt ≤ y.updatedAt := by
  obtain ⟨i, first⟩ := List.getElem?_of_mem hx
  obtain ⟨j, second⟩ := List.getElem?_of_mem hy
  have upTo : i ≤ j := by
    have number := h.version_eq first
    have later := h.version_eq second
    omega
  clear hy order
  induction j, upTo using Nat.le_induction generalizing y with
  | base =>
      rw [first] at second
      cases second
      exact Instant.le_refl _
  | succ j _ ih =>
      rcases h.made second with submitted | ⟨_, last, call, next, before, rewrote⟩
      · cases submitted
        have none : (0 : ℤ) = (j + 1 : ℕ) := h.version_eq second
        omega
      · obtain rfl := Nat.succ.inj next
        cases rewrote with
        | intro asker seen rewrite =>
            refine Instant.le_trans (ih before) ?_
            have stamp := rewrite.updatedAt_eq
            subst stamp
            exact stamped last _ seen

theorem Rewrite.createdAt_eq (h : past.Rewrite policy op cur time next)
    (accounted : past.Accounted policy) :
    next.createdAt = cur.createdAt := by
  cases h with
  | queue able pending backed => rfl
  | report reports queued reported job => cases reported <;> rfl
  | reset able failed => rfl
  | restore able known wasFailed replaced same reset =>
      obtain rfl := accounted.eq_of_version_eq replaced known same
      rw [reset]
      rfl

/-- Every way to rewrite a record leaves its times in order, if those of all versions up to the one
that is rewritten are. -/
theorem Rewrite.inOrder (h : past.Rewrite policy op cur time next)
    (accounted : past.Accounted policy)
    (stamped : ∀ cur time, past.Seen cur time → cur.updatedAt ≤ time) (seen : past.Seen cur time)
    (before : ∀ n ∈ past.versions cur.id, n.version ≤ cur.version → n.InOrder ∧ n.Cleared) :
    next.InOrder ∧ next.Cleared := by
  have known := seen.known
  obtain ⟨own, cleared⟩ := before cur known (Int.le_refl _)
  have upTo : cur.Until time := own.times.mono (stamped cur time seen)
  cases h with
  | queue able pending backed =>
      exact ⟨upTo.queuedFrom cleared pending, fun pending => (nomatch pending),
        fun failed => (nomatch failed)⟩
  | report reports queued reported job => exact ⟨reported.inOrder upTo, reported.cleared queued⟩
  | reset able failed => exact ⟨upTo.resetAt, fun _ => ⟨rfl, rfl⟩, fun _ => rfl⟩
  | @restore failed old earlier able mem wasFailed replaced same reset =>
      -- what is restored was stored before the version that it replaces
      have later : cur.version = failed.version + 1 := by rw [reset]; rfl
      have first : failed.version ≤ cur.version := by omega
      obtain ⟨whole, kept⟩ := before failed mem first
      have stamp := accounted.updatedAt_le stamped mem known first
      have past := whole.times.mono (Instant.le_trans stamp (stamped cur time seen))
      have noRetry := kept.failed wasFailed
      refine ⟨⟨⟨past.created, past.queued, past.sent, past.queuedFirst, past.failed⟩, ?_⟩,
        kept.pending, kept.failed⟩
      intro t retry
      exact nomatch noRetry.symm.trans retry

theorem Accounted.inOrder (h : past.Accounted policy)
    (stamped : ∀ cur time, past.Seen cur time → cur.updatedAt ≤ time)
    (known : n ∈ past.versions id) :
    n.InOrder ∧ n.Cleared := by
  obtain ⟨i, found⟩ := List.getElem?_of_mem known
  induction i using Nat.strongRecOn generalizing n with
  | ind i ih =>
      rcases h.made found with submitted | ⟨j, x, call, rfl, first, rewrote⟩
      · cases submitted
        exact ⟨Notification.inOrder_create _ _ _, Notification.cleared_create _ _ _⟩
      · cases rewrote with
        | intro asker seen rewrite =>
            have kept := rewrite.inOrder h stamped seen ?_
            · exact ⟨kept.1.merged (rewrite.createdAt_eq h), kept.2.merged x⟩
            · intro m mem upTo
              rw [id_of_mem_versions (List.mem_of_getElem? first)] at mem
              obtain ⟨k, place⟩ := List.getElem?_of_mem mem
              have last := h.version_eq first
              have number := h.version_eq place
              exact ih k (by omega) mem place

end Past

namespace Backend

variable {b : Backend} {c : Choice}

theorem clock_of_answer {r : Request} {step : Step r.Reply} (answered : b.answer c r = some step) :
    step.backend.clock = b.clock := by
  cases r with
  | now | get | scan | depth | send | freshId =>
      cases answered
      rfl
  | insert n =>
      cases answered
      simp only [Backend.insert]
      split <;> rfl
  | update n =>
      cases answered
      simp only [Backend.update]
      split <;> rfl
  | enqueue job =>
      cases answered
      simp only [Backend.enqueue]
      split <;> rfl
  | ack token =>
      cases answered
      simp only [Backend.ack]
      split <;> rfl
  | draw bound =>
      simp only [Backend.answer] at answered
      split at answered
      · cases answered
        rfl
      · cases answered
  | wallSeconds | lease | pause | probe | remembered | settle | endWatch | acquire | introspect =>
      cases answered

theorem reading_of_answer {r : Request} {step : Step r.Reply}
    (answered : b.answer c r = some step) (call : Nat) {time : Instant}
    (read : (Happening.answered call r step.reply).reading? = some time) :
    time = b.clock := by
  cases r with
  | now =>
      cases answered
      exact (Option.some.inj read).symm
  | _ => cases read

end Backend

namespace Pipeline

variable {d : Deployment} {allowed : Pipeline → Move → Prop} {clock : Instant} {s : Pipeline}

/-- What calls have read off the clock ascends, and the clock has got as far as that. -/
structure Timed (s : Pipeline) : Prop where
  ascending : s.past.readings.Pairwise (· ≤ ·)
  upTo : ∀ t ∈ s.past.readings, t ≤ s.backend.clock

theorem Timed.later {b : Backend} {calls : List Call} {more : Past} (timed : s.Timed)
    (forward : s.backend.clock ≤ b.clock)
    (read : ∀ e ∈ more, ∀ t, e.reading? = some t → t = b.clock) :
    Timed ⟨b, calls, s.past ++ more⟩ := by
  have new : ∀ t ∈ more.readings, t = b.clock := by
    intro t mem
    obtain ⟨e, mem, reading⟩ := List.mem_filterMap.mp mem
    exact read e mem t reading
  have old : ∀ t ∈ s.past.readings, t ≤ b.clock :=
    fun t mem => Instant.le_trans (timed.upTo t mem) forward
  constructor
  · rw [Past.readings_append]
    refine List.pairwise_append.mpr ⟨timed.ascending, ?_, fun t mem u later =>
      new u later ▸ old t mem⟩
    apply List.pairwise_of_forall_mem_list
    intro t first u second
    rw [new t first, new u second]
    exact Instant.le_refl _
  · intro t mem
    rw [Past.readings_append] at mem
    rcases List.mem_append.mp mem with earlier | later
    · exact old t earlier
    · exact new t later ▸ Instant.le_refl _

theorem timed_of_reachable (forward : ∀ s t, allowed s (.setClock t) → s.backend.clock ≤ t)
    (reached : Reachable d allowed clock s) : s.Timed := by
  induction reached with
  | initial => exact ⟨List.Pairwise.nil, fun _ mem => nomatch mem⟩
  | @step s next m _ may moved ih =>
      have aside (queue : Queue) (more : Past) (none : ∀ e ∈ more, e.reading? = none) :
          (s.leasing queue more).Timed := by
        refine ih.later (Instant.le_refl _) ?_
        intro e mem t reading
        exact nomatch (none e mem).symm.trans reading
      cases step_of_step? moved with
      | begin permitted =>
          refine ih.later (Instant.le_refl _) ?_
          intro e mem t reading
          obtain rfl := List.mem_singleton.mp mem
          cases reading
      | advance asks answered =>
          have kept := Backend.clock_of_answer answered
          refine ih.later (kept ▸ Instant.le_refl _) ?_
          intro e mem t reading
          obtain rfl := List.mem_singleton.mp mem
          exact (Backend.reading_of_answer answered _ reading).trans kept.symm
      | refused => exact ih
      | idle tried => exact aside _ [] fun _ mem => nomatch mem
      | leased fresh tried =>
          apply aside
          intro e mem
          obtain rfl := List.mem_singleton.mp mem
          rfl
      | dropped tried =>
          apply aside
          intro e mem
          obtain ⟨job, _, rfl⟩ := List.mem_map.mp mem
          rfl
      | @setClock t =>
          exact ⟨ih.ascending, fun u mem => Instant.le_trans (ih.upTo u mem) (forward s t may)⟩
      | setAvailable => exact ⟨ih.ascending, ih.upTo⟩

/-- However calls meet and whatever fails, if the clock never goes back, then neither do the stamps
of the versions of a notification, and in each version the times are in order. The times that
reports average, from queueing to sending and from creation to failure, are negative only from a
leap second at the end of a day to the second after it. -/
theorem times_in_order (forward : ∀ s t, allowed s (.setClock t) → s.backend.clock ≤ t)
    (reached : Reachable d allowed clock s) :
    (∀ n ∈ s.backend.store.records, n ∈ s.past.versions n.id) ∧
      ∀ id, (s.past.versions id).Pairwise (fun x y => x.updatedAt ≤ y.updatedAt) ∧
        ∀ n ∈ s.past.versions id, n.InOrder ∧
          (∀ q t, n.queuedAt = some q → n.sentAt = some t →
            (t.since q < 0 ↔ q.AcrossMidnight t)) ∧
          ∀ t, n.failedAt = some t → (t.since n.createdAt < 0 ↔ n.createdAt.AcrossMidnight t) := by
  have keeping := keeping_of_reachable (contract_kept d) reached
  have accounted := accounted_of_reachable reached
  have timed := timed_of_reachable forward reached
  have stamped (cur : Notification) (time : Instant) (seen : s.past.Seen cur time) :
      cur.updatedAt ≤ time := seen.updatedAt_le keeping.lawful timed.ascending
  refine ⟨keeping.describes.known, fun id => ⟨?_, ?_⟩⟩
  · apply List.pairwise_iff_getElem.mpr
    intro i j hi hj before
    have first := accounted.version_eq (List.getElem?_eq_getElem hi)
    have second := accounted.version_eq (List.getElem?_eq_getElem hj)
    apply accounted.updatedAt_le stamped (List.getElem_mem hi) (List.getElem_mem hj)
    omega
  · intro n known
    obtain ⟨ordered, _⟩ := accounted.inOrder stamped known
    refine ⟨ordered, ?_, ?_⟩
    · intro q t queued sent
      exact Instant.since_neg_iff (ordered.times.queuedFirst q t queued sent)
    · intro t failed
      exact Instant.since_neg_iff (ordered.times.failed t failed).1

/-- Anything may happen, but the clock does not go back. -/
def onward (s : Pipeline) : Move → Bool
  | .setClock t => decide (s.backend.clock ≤ t)
  | _ => true

namespace Sample

/-- 2016-12-31T23:59:60.9, in a leap second. -/
def leapSecond : Instant := ⟨1483228799, 1900000000, by decide, by decide, by decide, by decide⟩

/-- 2017-01-01T00:00:00, a tenth of a second later. -/
def newYear : Instant := .ofSecond 1483228800

/-- A notification is queued in the leap second, and sent when that is over. -/
def overMidnight : List Move :=
  creation ++ .setClock newYear :: .begin (.record Sample.id 0 .success) ::
    List.replicate 3 (advance 1)

end Sample

/-- The times are in order even where the clock goes on from a leap second to the new year. -/
theorem times_in_order_over_midnight : ∃ s,
    (initial Sample.leapSecond).run? Sample.deployment onward Sample.overMidnight = some s ∧
      (∀ s t, onward s (.setClock t) = true → s.backend.clock ≤ t) ∧
      Reachable Sample.deployment (fun s m => onward s m) Sample.leapSecond s ∧
      (s.past.versions Sample.id).length = 3 ∧ ∀ n ∈ s.past.versions Sample.id, n.InOrder := by
  have run : ∃ s, (initial Sample.leapSecond).run? Sample.deployment onward Sample.overMidnight =
      some s ∧
      (s.past.versions Sample.id).length = 3 := ⟨_, rfl, rfl⟩
  obtain ⟨s, run, three⟩ := run
  have forward (s : Pipeline) (t : Instant) (may : onward s (.setClock t) = true) :
      s.backend.clock ≤ t :=
    of_decide_eq_true may
  have reached := Reachable.initial.run run
  obtain ⟨_, ordered⟩ := times_in_order forward reached
  exact ⟨s, run, forward, reached, three, fun n known => ((ordered Sample.id).2 n known).1⟩

/-- A notification that was queued in a leap second has been sent before it was queued, by the
difference that reports average. -/
theorem negative_time_over_midnight : ∃ s,
    (initial Sample.leapSecond).run? Sample.deployment onward Sample.overMidnight = some s ∧
      Reachable Sample.deployment (fun s m => onward s m) Sample.leapSecond s ∧
      ∃ n ∈ s.backend.store.records, n.queuedAt = some Sample.leapSecond ∧
        n.sentAt = some Sample.newYear ∧ Sample.newYear.since Sample.leapSecond = -900000000 := by
  have run : ∃ s, (initial Sample.leapSecond).run? Sample.deployment onward Sample.overMidnight =
      some s ∧
      ∃ n ∈ s.backend.store.records, n.queuedAt = some Sample.leapSecond ∧
        n.sentAt = some Sample.newYear := by
    exact ⟨_, rfl, _, List.mem_cons_self, rfl, rfl⟩
  obtain ⟨s, run, n, stored, queued, sent⟩ := run
  exact ⟨s, run, Reachable.initial.run run, n, stored, queued, sent, by decide⟩

end Pipeline
end Courier
