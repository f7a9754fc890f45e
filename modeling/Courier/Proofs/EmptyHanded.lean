import Courier.Proofs.Draining
import Courier.Simulation.World

/-!
Calls that come away from the queue without a job. Whether nothing was due or the queue was not
available, every job that was live is live afterwards, and whoever asks for it in time is given it.
Only a call that breaks off, because a lease would run out beyond all dates, costs a job: the first
one that was due is gone, and no other.
-/
namespace Courier

namespace Simulation

namespace Poll

variable {β : Type}

def world : Poll β → World
  | ready _ w | waiting _ w | broken w => w

def isBroken : Poll β → Bool
  | broken _ => true
  | _ => false

def lease? : Poll (Option (Except Error (Option Lease))) → Option Lease
  | ready (some (.ok lease)) _ => lease
  | _ => none

end Poll

/-- A call that waits for a job looks at the queue now: nobody has told it to stop, and it does not
pause between two looks. -/
def World.Looks (w : World) (p : Option Progress) (stop : Bool) : Prop :=
  stop = false ∧ ∀ progress ∈ p, progress.wakeAt ≤ w.time ∨ progress.pushes < w.pushes

end Simulation

namespace Queue

open Simulation (World Poll Progress)

/-- Asking for one job after another and acknowledging each. -/
def takings (now : Instant) (leaseFor : Duration) : List Uuid → List Access
  | [] => []
  | token :: tokens => .lease now leaseFor token :: .ack token :: takings now leaseFor tokens

/-- From some time on, whoever asks as often as there are jobs is given this one, once the queue is
available. He may lease the jobs for any time that has an end, and acknowledges each. -/
def Deliverable (q : Queue) (job : Job) : Prop :=
  ∃ since : Instant, ∀ now leaseFor tokens taken after, since ≤ now → (now.add? leaseFor).isSome →
    q.liveJobs.length ≤ tokens.length → Runs q taken after →
      taken.map Exchange.access = .setAvailable true :: takings now leaseFor tokens →
        job ∈ taken.leases.map Lease.job

/-- What a call that looks at the queue, or does not, leaves of it when it comes away without a job.
It may have broken off. -/
structure EmptyHanded (q : Queue) (now : Instant) (leaseFor : Duration) (looks breaks : Prop)
    (after : Queue) : Prop where
  breaks_iff : breaks ↔ looks ∧ q.available = true ∧ now.add? leaseFor = none ∧
    ∃ e due, Due q now (e :: due)
  kept : ¬breaks → after.liveJobs.Perm q.liveJobs
  lost : breaks → ∃ e due, Due q now (e :: due) ∧ q.liveJobs.Perm (e.job :: after.liveJobs)
  deliverable : ∀ job ∈ after.liveJobs, after.Deliverable job

variable {q mid asked after : Queue} {now expiresAt : Instant} {leaseFor : Duration} {token : Uuid}
  {answer reply : Answer} {e : Entry} {due : List Entry} {taken history : History}

theorem History.leases_cons (exchange : Exchange) (history : History) :
    leases (exchange :: history) = exchange.lease?.toList ++ history.leases := by
  cases given : exchange.lease? <;> simp [leases, given]

theorem Due.nil_of_less (h : Due q now []) (waiting : after.waiting ⊆ q.waiting)
    (leased : after.leased ⊆ q.leased) : Due after now [] where
  mem e := by
    refine ⟨nofun, fun isDue => ?_⟩
    obtain ⟨visible, waits | ⟨held, mem, own, expired⟩⟩ := isDue
    · exact (h.mem e).mpr ⟨visible, .inl (waiting waits)⟩
    · exact (h.mem e).mpr ⟨visible, .inr ⟨held, leased mem, own, expired⟩⟩
  ascending := .nil

theorem Due.taking (h : Due q now due) (up : q.available = true)
    (places : (q.entries.map Entry.sequence).Nodup) (ends : now.add? leaseFor = some expiresAt)
    (leased : Served q (.lease now leaseFor token) answer mid) (same : Rearranged mid asked)
    (acked : Served asked (.ack token) reply after) :
    (Exchange.lease? ⟨.lease now leaseFor token, answer⟩).toList.map Lease.job =
      (due.take 1).map Entry.job ∧ Due after now (due.drop 1) := by
  cases acked with
  | refused down => cases down.symm.trans (same.available.trans (leased.leasing.1.trans up))
  | acked =>
      cases due with
      | nil =>
          obtain ⟨rfl, none⟩ := h.nothing up leased
          refine ⟨rfl, (none.rearranged same).nil_of_less (List.Subset.refl _) fun held mem => ?_⟩
          exact List.mem_of_mem_filter mem
      | cons e due =>
          obtain ⟨rfl, rfl⟩ := h.granted up ends leased
          refine ⟨rfl, h.rest places same.waiting fun held mem => ?_⟩
          -- of the leases that have not run out, only the one just given ends here
          obtain ⟨mem, other⟩ := List.mem_filter.mp mem
          rcases List.mem_append.mp (same.leased.subset mem) with mem | new
          · exact unexpired_reclaim held mem
          · rw [List.mem_singleton.mp new] at other
            simp at other

theorem Served.taking (leased : Served q (.lease now leaseFor token) answer mid)
    (same : Rearranged mid asked) (acked : Served asked (.ack token) reply after) :
    after.available = q.available ∧ after.entries.Subperm q.entries := by
  obtain ⟨up, less⟩ := leased.leasing
  have fewer := (acked.less (by cases acked <;> rfl)).1
  refine ⟨?_, fewer.trans (same.entries.subperm.trans less)⟩
  rw [← up, ← same.available]
  cases acked <;> rfl

theorem Due.takings (h : Due q now due) (up : q.available = true)
    (places : (q.entries.map Entry.sequence).Nodup) (ends : now.add? leaseFor = some expiresAt)
    {tokens : List Uuid} (runs : Runs q taken after)
    (asks : taken.map Exchange.access = Queue.takings now leaseFor tokens) :
    taken.leases.map Lease.job = (due.take tokens.length).map Entry.job := by
  induction tokens generalizing q due taken with
  | nil =>
      obtain rfl := List.map_eq_nil_iff.mp asks
      rfl
  | cons token tokens ih =>
      obtain ⟨⟨_, answer⟩, taken, rfl, rfl, acks⟩ := List.map_eq_cons_iff.mp asks
      obtain ⟨⟨_, reply⟩, taken, rfl, rfl, onward⟩ := List.map_eq_cons_iff.mp acks
      obtain ⟨start, mid, same, leased, runs⟩ := runs.uncons
      obtain ⟨asked, left, again, acked, runs⟩ := runs.uncons
      have leased := served_of_serve leased
      have acked := served_of_serve acked
      have up_start := same.available.trans up
      have places_start := (same.entries.map Entry.sequence).nodup_iff.mpr places
      obtain ⟨given, due_left⟩ :=
        (h.rearranged same).taking up_start places_start ends leased again acked
      obtain ⟨available, less⟩ := leased.taking again acked
      have later := ih due_left (available.trans up_start) (nodup_map_of_subperm places_start less)
        runs onward
      have unlike : Exchange.lease? ⟨.ack token, reply⟩ = none := by cases acked <;> rfl
      rw [History.leases_cons, History.leases_cons, unlike, Option.toList_none, List.nil_append,
        List.map_append, given, later, ← List.map_append, List.length_cons,
        Nat.add_comm, List.take_add]

theorem Due.length_le (h : Due q now due) : due.length ≤ q.liveJobs.length := by
  have within : due ⊆ q.entries := by
    intro e mem
    obtain ⟨_, waits | ⟨held, own, same, _⟩⟩ := (h.mem e).mp mem
    · exact List.mem_append_left _ waits
    · exact List.mem_append_right _ (List.mem_map.mpr ⟨held, own, same⟩)
  rw [liveJobs_eq, List.length_map]
  exact (h.nodup.subperm within).length_le

theorem exists_time_of_live (mem : e ∈ q.entries) : ∃ since : Instant, ∀ now, since ≤ now →
    e.job.visibleAt ≤ now ∧
      (e ∈ q.waiting ∨ ∃ held ∈ q.leased, held.entry = e ∧ held.expiresAt ≤ now) := by
  rcases List.mem_append.mp mem with waits | leased
  · exact ⟨e.job.visibleAt, fun now later => ⟨later, .inl waits⟩⟩
  · obtain ⟨held, own, rfl⟩ := List.mem_map.mp leased
    rcases Int.le_total held.expiresAt.key held.entry.job.visibleAt.key with first | first
    · exact ⟨held.entry.job.visibleAt, fun now later =>
        ⟨later, .inr ⟨held, own, rfl, Instant.le_trans first later⟩⟩⟩
    · exact ⟨held.expiresAt, fun now later =>
        ⟨Instant.le_trans first later, .inr ⟨held, own, rfl, later⟩⟩⟩

/-- Every live job is given to somebody who asks for it in time. -/
theorem deliverable_of_live (places : (q.entries.map Entry.sequence).Nodup) {job : Job}
    (live : job ∈ q.liveJobs) : q.Deliverable job := by
  rw [liveJobs_eq] at live
  obtain ⟨e, mem, rfl⟩ := List.mem_map.mp live
  obtain ⟨since, isDue⟩ := exists_time_of_live mem
  refine ⟨since, fun now leaseFor tokens taken after later ends many runs asks => ?_⟩
  obtain ⟨expiresAt, ends⟩ := Option.isSome_iff_exists.mp ends
  obtain ⟨⟨_, answer⟩, taken, rfl, rfl, onward⟩ := List.map_eq_cons_iff.mp asks
  obtain ⟨start, opened, same, switched, runs⟩ := runs.uncons
  cases switched
  have places_start := (same.entries.map Entry.sequence).nodup_iff.mpr places
  obtain ⟨due, due_start⟩ := @exists_due { start with available := true } now places_start
  have first : e ∈ due := by
    rw [due_start.mem]
    simpa only [same.waiting.mem_iff, same.leased.mem_iff] using isDue now later
  have enough : due.length ≤ tokens.length := by
    have count : start.liveJobs.length = q.liveJobs.length := by
      rw [liveJobs_eq, liveJobs_eq]
      exact (same.entries.map Entry.job).length_eq
    exact Nat.le_trans due_start.length_le (count ▸ many)
  have jobs := due_start.takings rfl places_start ends runs onward
  rw [List.take_of_length_le enough] at jobs
  have none : Exchange.lease? ⟨.setAvailable true, .switched⟩ = none := rfl
  rw [History.leases_cons, none, Option.toList_none, List.nil_append, jobs]
  exact List.mem_map.mpr ⟨e, first, rfl⟩

/-- The job that is next is the first of those that are due. -/
theorem exists_due_of_next (places : (q.entries.map Entry.sequence).Nodup)
    (next : (q.reclaim now).nextVisible now = some e) : ∃ due, Due q now (e :: due) := by
  obtain ⟨due, isDue⟩ := @exists_due q now places
  cases due with
  | nil => exact absurd (isDue.of_next next).1 List.not_mem_nil
  | cons b rest =>
      obtain rfl := isDue.eq_of_next next
      exact ⟨rest, isDue⟩

theorem nextVisible_isSome_iff (places : (q.entries.map Entry.sequence).Nodup) :
    ((q.reclaim now).nextVisible now).isSome ↔ ∃ e due, Due q now (e :: due) := by
  rw [Option.isSome_iff_exists]
  refine ⟨fun ⟨e, next⟩ => ⟨e, exists_due_of_next places next⟩, fun ⟨e, due, isDue⟩ => ?_⟩
  exact Option.ne_none_iff_exists'.mp (firstOf_ne_none (isDue.mem_iff.mp List.mem_cons_self))

theorem emptyHanded_of_serve (places : (q.entries.map Entry.sequence).Nodup)
    (asked : q.serve (.lease now leaseFor token) = (answer, after))
    (vain : ∀ lease, answer ≠ .tried (.leased lease)) :
    EmptyHanded q now leaseFor True (answer = .tried .outOfRange) after := by
  have deliverable : ∀ job ∈ after.liveJobs, after.Deliverable job := fun job live =>
    deliverable_of_live (nodup_map_of_subperm places (served_of_serve asked).leasing.2) live
  have spec := tryLease_spec q now leaseFor token
  have breaks := @tryLease_outOfRange_iff q now leaseFor token
  rw [nextVisible_isSome_iff places] at breaks
  cases up : q.available with
  | false =>
      simp only [serve, up] at asked
      cases asked
      have whole : Answer.refused ≠ .tried .outOfRange := by simp
      refine ⟨⟨fun broken => absurd broken whole, fun breaking => ?_⟩, fun _ => .refl _,
        fun broken => absurd broken whole, deliverable⟩
      cases up.symm.trans breaking.2.1
  | true =>
      simp only [serve, up, if_true] at asked
      generalize q.tryLease now leaseFor token = tried at spec breaks asked
      obtain ⟨attempt, left⟩ := tried
      cases asked
      have breaks_iff : Answer.tried attempt = .tried .outOfRange ↔
          True ∧ q.available = true ∧ now.add? leaseFor = none ∧ ∃ e due, Due q now (e :: due) := by
        rw [Answer.tried.injEq, breaks, up, true_and, eq_self, true_and, and_comm]
      refine ⟨breaks_iff, fun goes_on => ?_, fun broken => ?_, deliverable⟩
      · cases attempt with
        | nothing => exact spec.1
        | leased lease => exact absurd rfl (vain lease)
        | outOfRange => exact absurd rfl goes_on
      · cases broken
        obtain ⟨_, e, next, taken⟩ := spec
        obtain ⟨due, isDue⟩ := exists_due_of_next places next
        exact ⟨e, due, isDue, taken⟩

theorem serve_of_lookForJob (w : World) (endsAt : Nat) (leaseFor : Duration) : ∃ answer,
    w.backend.queue.serve (.lease w.backend.clock leaseFor w.backend.freshId.1) =
      (answer, (w.lookForJob endsAt leaseFor).world.backend.queue) ∧
    ((w.lookForJob endsAt leaseFor).isBroken = true ↔ answer = .tried .outOfRange) ∧
    ∀ lease, answer = .tried (.leased lease) →
    (w.lookForJob endsAt leaseFor).lease? = some lease := by
  have asked := serve_lease w.backend leaseFor
  generalize w.backend.freshId.1 = token at asked ⊢
  unfold World.lookForJob
  generalize w.backend.tryLease leaseFor = s at asked ⊢
  obtain ⟨reply, backend, events⟩ := s
  match reply with
  | .error e => exact ⟨.refused, asked, ⟨nofun, nofun⟩, fun _ given => nomatch given⟩
  | .ok .nothing =>
      simp only []
      split
      · exact ⟨.tried .nothing, asked, ⟨nofun, nofun⟩, fun _ given => nomatch given⟩
      · exact ⟨.tried .nothing, asked, ⟨nofun, nofun⟩, fun _ given => nomatch given⟩
  | .ok (.leased lease) =>
      refine ⟨.tried (.leased lease), asked, ⟨nofun, nofun⟩, fun other same => ?_⟩
      cases same
      rfl
  | .ok .outOfRange => exact ⟨.tried .outOfRange, asked, ⟨fun _ => rfl, fun _ => rfl⟩,
      fun _ given => nomatch given⟩

/-- A call that waits looks at the queue, or leaves everything as it is. -/
theorem looks_or_idle (w : World) (p : Option Progress) (stop : Bool) (wait leaseFor : Duration) :
    (w.Looks p stop ∧ ∃ endsAt, w.lease p stop wait leaseFor = w.lookForJob endsAt leaseFor) ∨
      ¬w.Looks p stop ∧ (w.lease p stop wait leaseFor).world = w ∧
        (w.lease p stop wait leaseFor).isBroken = false := by
  unfold World.lease World.Looks
  cases stop with
  | true => exact .inr ⟨by simp, rfl, rfl⟩
  | false =>
      cases p with
      | none => exact .inl ⟨by simp, _, rfl⟩
      | some progress =>
          simp only [Bool.false_eq_true, if_false, Option.mem_some, forall_eq', true_and]
          split
          · rename_i ready
            exact .inl ⟨ready, _, rfl⟩
          · rename_i pausing
            exact .inr ⟨pausing, rfl, rfl⟩

/-- A call for a job that comes away without one takes no live job with it, unless it breaks off:
then the first job that is due is gone, and no other. -/
theorem live_unless_broken_off {w : World} (runs : Runs empty history w.backend.queue)
    {p : Option Progress} {stop : Bool} {wait leaseFor : Duration}
    (vain : (w.lease p stop wait leaseFor).lease? = none) :
    EmptyHanded w.backend.queue w.backend.clock leaseFor (w.Looks p stop)
      ((w.lease p stop wait leaseFor).isBroken = true)
      (w.lease p stop wait leaseFor).world.backend.queue := by
  have places := (kept_of_runs runs).nodup_sequences
  rcases looks_or_idle w p stop wait leaseFor with ⟨looks, endsAt, looked⟩ | ⟨idle, same, whole⟩
  · rw [looked] at vain ⊢
    obtain ⟨answer, asked, broken, given⟩ := serve_of_lookForJob w endsAt leaseFor
    rw [propext broken, eq_true looks]
    refine emptyHanded_of_serve places asked fun lease answered => ?_
    cases vain.symm.trans (given lease answered)
  · rw [same, whole]
    refine ⟨⟨nofun, fun breaking => absurd breaking.1 idle⟩, fun _ => .refl _, nofun,
      fun job live => ?_⟩
    exact deliverable_of_live places live

namespace Sample

def world (q : Queue) (now : Instant) : World :=
  { setup :=
      { app :=
          { policy := ⟨3, .zero, .ofSeconds 86400, false⟩
            health := .standard
            limiter := ⟨⟨10, 1, .ofSeconds 600⟩, true⟩
            keyMode := .address
            validate := fun _ => pure (.error Http.App.missingToken) }
        worker := .standard
        emitters := []
        remoteStore := false
        remembers := false
        wallSeconds := 0 }
    backend := ⟨.empty, q, now, 0⟩ }

end Sample

/-- At second 63 the job whose lease has run out is due before the one that has waited since second
5. -/
theorem rest_live_when_broken_off : ∃ q, Runs empty Sample.backlog q ∧
    let w := Sample.world q (.ofSecond 63)
    let poll := w.lease none false (.ofSeconds 2) .longest
    poll.lease? = none ∧ poll.isBroken = true ∧
      q.liveJobs = [Sample.jobAt 1 5, Sample.jobAt 4 100, Sample.jobAt 2 3, Sample.jobAt 3 3] ∧
      poll.world.backend.queue.liveJobs = [Sample.jobAt 1 5, Sample.jobAt 4 100, Sample.jobAt 3 3] ∧
      EmptyHanded q (.ofSecond 63) .longest (w.Looks none false) (poll.isBroken = true)
        poll.world.backend.queue := by
  have replayed : ∃ q, empty.replay (Sample.backlog.map Exchange.access) = (Sample.backlog, q) ∧
      q.liveJobs = [Sample.jobAt 1 5, Sample.jobAt 4 100, Sample.jobAt 2 3, Sample.jobAt 3 3] ∧
      let poll := (Sample.world q (.ofSecond 63)).lease none false (.ofSeconds 2) .longest
      poll.lease? = none ∧ poll.isBroken = true ∧
        poll.world.backend.queue.liveJobs =
          [Sample.jobAt 1 5, Sample.jobAt 4 100, Sample.jobAt 3 3] := ⟨_, rfl, rfl, rfl, rfl, rfl⟩
  obtain ⟨q, replayed, before, vain, broken, left⟩ := replayed
  have runs : Runs empty Sample.backlog q := runs_of_replay replayed
  have runs_world : Runs empty Sample.backlog (Sample.world q (.ofSecond 63)).backend.queue := runs
  exact ⟨q, runs, vain, broken, before, left, live_unless_broken_off runs_world vain⟩

/-- A lease would run out beyond all dates, and the only job of the queue is gone: nobody is given
it any more. -/
theorem job_lost_beyond_dates : ∃ q, Runs empty [⟨.enqueue Sample.job, .enqueued true⟩] q ∧
    let poll := (Sample.world q (.ofSecond 0)).lease none false .zero
        (.ofMillis 18446744073709551615)
    poll.lease? = none ∧ q.liveJobs = [Sample.job] ∧ poll.world.backend.queue.liveJobs = [] ∧
      ∀ later leaseFor token,
        (poll.world.backend.queue.serve (.lease later leaseFor token)).1 = .tried .nothing := by
  refine ⟨_, .served .start rfl, rfl, rfl, rfl, fun later leaseFor token => rfl⟩

end Queue
end Courier
