import Courier.Proofs.WorkerWarrants
import Courier.Proofs.LiveJobs

/-!
The live jobs of the queue, told from the past. A job for an attempt is live from when it is put on
the queue until a worker acknowledges it under a lease that it still holds, or until it is lost with
a lease that cannot be dated.
-/
namespace Courier

namespace Past

/-- The happening takes a job for the attempt off the queue. -/
inductive Releases (past : Past) (key : Job.Key) : Happening → Prop
  | acked {call : Nat} {token : Uuid} {lease : Lease}
      (worker : past.operations[call]? = some (.process lease)) (same : lease.job.key = key) :
      Releases past key (.answered call (.ack token) (.ok true))
  | dropped {job : Job} (same : job.key = key) : Releases past key (.dropped job)

def takesOff : Happening → Bool
  | .answered _ (.ack _) (.ok true) | .dropped _ => true
  | _ => false

/-- A job for the attempt was put on the queue and none has been taken off it since. -/
inductive Outstanding (key : Job.Key) : Past → Prop
  | pushed {past : Past} {e : Happening} {job : Job} (pushed : e.pushed? = some job)
      (same : job.key = key) : Outstanding key (past ++ [e])
  | kept {past : Past} {e : Happening} (before : Outstanding key past)
      (held : ¬past.Releases key e) : Outstanding key (past ++ [e])

variable {past now : Past} {key : Job.Key} {e : Happening}

theorem outstanding_snoc : Outstanding key (past ++ [e]) ↔
    (∃ job, e.pushed? = some job ∧ job.key = key) ∨
      (past.Outstanding key ∧ ¬past.Releases key e) := by
  constructor
  · generalize whole : past ++ [e] = now
    intro h
    cases h with
    | @pushed before e' job pushed same =>
        obtain ⟨rfl, rfl⟩ := List.append_singleton_inj.mp whole
        exact .inl ⟨job, pushed, same⟩
    | @kept before e' outstanding held =>
        obtain ⟨rfl, rfl⟩ := List.append_singleton_inj.mp whole
        exact .inr ⟨outstanding, held⟩
  · rintro (⟨job, pushed, same⟩ | ⟨outstanding, held⟩)
    · exact .pushed pushed same
    · exact .kept outstanding held

theorem Releases.takesOff (h : past.Releases key e) : takesOff e = true := by
  cases h with
  | acked worker same => rfl
  | dropped same => rfl

theorem Outstanding.asked (h : past.Outstanding key) : past.Asked key := by
  induction h with
  | pushed pushed same =>
      exact ⟨_, List.mem_append_right _ (List.mem_singleton.mpr rfl), _, pushed, same⟩
  | kept before held ih => exact ih.mono (List.prefix_append _ _)

end Past

namespace Pipeline

structure Tracked (s : Pipeline) : Prop where
  keys : s.backend.queue.keys.Nodup
  tokens : s.backend.queue.tokens.Nodup
  held : ∀ held ∈ s.backend.queue.leased, ∃ lease ∈ s.past.leases,
    lease.token = held.token ∧ lease.job = held.entry.job
  leases : ∀ l ∈ s.past.leases, ∀ l' ∈ s.past.leases, l.token = l'.token → l = l'
  asked : ∀ lease ∈ s.past.leases, s.past.Asked lease.job.key
  workers : ∀ lease, .process lease ∈ s.past.operations → lease ∈ s.past.leases
  live : ∀ key, key ∈ s.backend.queue.keys ↔ s.past.Outstanding key

variable {d : Deployment} {s next : Pipeline} {m : Move} {b : Backend} {calls : List Call}
  {e : Happening}

theorem tracked_initial (clock : Instant) : (initial clock).Tracked := by
  have empty (key : Job.Key) : ¬Past.Outstanding key [] := by
    intro h
    obtain ⟨e, mem, _⟩ := h.asked
    cases mem
  constructor <;> simp [initial, Queue.empty, Queue.keys, Queue.liveJobs, Queue.tokens,
    Past.leases, Past.operations, empty]

theorem Tracked.reclaimed (h : s.Tracked) (keys : b.queue.keys.Perm s.backend.queue.keys)
    (leased : b.queue.leased.Sublist s.backend.queue.leased) :
    Tracked ⟨b, s.calls, s.past⟩ := by
  refine ⟨keys.nodup_iff.mpr h.keys, h.tokens.sublist (leased.map _), ?_, h.leases, h.asked,
    h.workers, ?_⟩
  · exact fun held mem => h.held held (leased.subset mem)
  · exact fun key => keys.mem_iff.trans (h.live key)

theorem Tracked.snoc (h : s.Tracked) (keys : b.queue.keys.Nodup)
    (leased : b.queue.leased.Sublist s.backend.queue.leased) (noLease : e.lease? = none)
    (worker : ∀ lease, e.operation? = some (.process lease) → lease ∈ s.past.leases)
    (live : ∀ key, key ∈ b.queue.keys ↔ (∃ job, e.pushed? = some job ∧ job.key = key) ∨
      (key ∈ s.backend.queue.keys ∧ ¬s.past.Releases key e)) :
    Tracked ⟨b, calls, s.past ++ [e]⟩ := by
  have leases : Past.leases (s.past ++ [e]) = s.past.leases := by
    simp [Past.leases, List.filterMap_append, noLease]
  refine ⟨keys, h.tokens.sublist (leased.map _), ?_, ?_, ?_, ?_, ?_⟩
  · intro held mem
    rw [leases]
    exact h.held held (leased.subset mem)
  · rw [leases]
    exact h.leases
  · intro lease mem
    rw [leases] at mem
    exact (h.asked lease mem).mono (List.prefix_append _ _)
  · intro lease mem
    rw [leases]
    rw [Past.operations_append] at mem
    rcases List.mem_append.mp mem with old | new
    · exact h.workers lease old
    · obtain ⟨e', mem, operation⟩ := List.mem_filterMap.mp new
      obtain rfl := List.mem_singleton.mp mem
      exact worker lease operation
  · intro key
    rw [Past.outstanding_snoc, live, h.live]

theorem Tracked.quiet (h : s.Tracked) (same : b.queue = s.backend.queue) (noLease : e.lease? = none)
    (noCall : e.operation? = none) (noPush : e.pushed? = none) (kept : Past.takesOff e = false) :
    Tracked ⟨b, calls, s.past ++ [e]⟩ := by
  have held (key : Job.Key) : ¬s.past.Releases key e := by
    intro gone
    rw [gone.takesOff] at kept
    cases kept
  refine h.snoc (by simpa only [same] using h.keys) (by simp only [same, List.Sublist.refl]) noLease
    (by simp [noCall]) fun key => ?_
  simp [same, noPush, held key]

theorem Tracked.released (h : s.Tracked) {gone : Job.Key}
    (parted : s.backend.queue.keys.Perm (gone :: b.queue.keys))
    (leased : b.queue.leased.Sublist s.backend.queue.leased) (noLease : e.lease? = none)
    (noCall : e.operation? = none) (noPush : e.pushed? = none)
    (releases : ∀ key, s.past.Releases key e ↔ gone = key) :
    Tracked ⟨b, calls, s.past ++ [e]⟩ := by
  obtain ⟨absent, rest⟩ := List.nodup_cons.mp (parted.nodup_iff.mp h.keys)
  refine h.snoc rest leased noLease (by simp [noCall]) fun key => ?_
  rw [releases, parted.mem_iff, List.mem_cons, noPush]
  constructor
  · intro live
    exact .inr ⟨.inr live, fun same => absent (same ▸ live)⟩
  · rintro (⟨job, pushed, _⟩ | ⟨same | live, other⟩)
    · cases pushed
    · exact absurd same.symm other
    · exact live

/-- A lease goes out under a token that no lease had, for a job that was live and still is. -/
theorem Tracked.leased (h : s.Tracked) {lease : Lease} {entry : Queue.Entry}
    {kept : List Queue.Held} (keys : b.queue.keys.Perm s.backend.queue.keys)
    (fresh : ∀ l ∈ s.past.leases, l.token ≠ lease.token)
    (before : kept.Sublist s.backend.queue.leased)
    (after : b.queue.leased = kept ++ [⟨lease.token, entry, lease.expiresAt⟩])
    (job : lease.job = entry.job) :
    Tracked ⟨b, s.calls, s.past ++ [.leased lease]⟩ := by
  have leases : Past.leases (s.past ++ [.leased lease]) = s.past.leases ++ [lease] := by
    simp [Past.leases, List.filterMap_append, Happening.lease?]
  have operations : Past.operations (s.past ++ [.leased lease]) = s.past.operations := by
    simp [Past.operations, List.filterMap_append, Happening.operation?]
  have known (held : Queue.Held) (mem : held ∈ kept) := h.held held (before.subset mem)
  refine ⟨keys.nodup_iff.mpr h.keys, ?_, ?_, ?_, ?_, ?_, ?_⟩
  · simp only [Queue.tokens, after, List.map_append, List.map_cons, List.map_nil]
    refine List.nodup_append.mpr ⟨h.tokens.sublist (before.map _), by simp, ?_⟩
    intro a mem b new
    obtain rfl := List.mem_singleton.mp new
    obtain ⟨held, kept, rfl⟩ := List.mem_map.mp mem
    obtain ⟨old, granted, same, _⟩ := known held kept
    rw [← same]
    exact fresh old granted
  · intro held mem
    rw [leases]
    rw [after] at mem
    rcases List.mem_append.mp mem with old | new
    · obtain ⟨lease, mem, same⟩ := known held old
      exact ⟨lease, List.mem_append_left _ mem, same⟩
    · obtain rfl := List.mem_singleton.mp new
      exact ⟨lease, List.mem_append_right _ (List.mem_singleton.mpr rfl), rfl, job⟩
  · intro l mem l' mem' same
    rw [leases] at mem mem'
    rcases List.mem_append.mp mem with old | new <;> rcases List.mem_append.mp mem' with old' | new'
    · exact h.leases l old l' old' same
    · obtain rfl := List.mem_singleton.mp new'
      exact absurd same (fresh l old)
    · obtain rfl := List.mem_singleton.mp new
      exact absurd same.symm (fresh l' old')
    · rw [List.mem_singleton.mp new, List.mem_singleton.mp new']
  · intro other mem
    rw [leases] at mem
    refine Past.Asked.mono ?_ (List.prefix_append _ _)
    rcases List.mem_append.mp mem with old | new
    · exact h.asked other old
    · obtain rfl := List.mem_singleton.mp new
      have live : entry.job.key ∈ b.queue.keys := by
        refine Queue.mem_keys_of_held (show ⟨other.token, entry, other.expiresAt⟩ ∈ _ from ?_)
        rw [after]
        exact List.mem_append_right _ (List.mem_singleton.mpr rfl)
      rw [job]
      exact ((h.live _).mp (keys.mem_iff.mp live)).asked
  · intro other mem
    rw [operations] at mem
    rw [leases]
    exact List.mem_append_left _ (h.workers other mem)
  · intro key
    rw [Past.outstanding_snoc, keys.mem_iff, h.live]
    constructor
    · intro old
      refine .inr ⟨old, fun gone => ?_⟩
      cases gone
    · rintro (⟨job, pushed, _⟩ | ⟨old, _⟩)
      · cases pushed
      · exact old

/-- A worker that acknowledges under a lease takes the job of that lease off the queue, if the lease
is still held. -/
theorem Tracked.acked (h : s.Tracked) {call : Nat} {lease : Lease} {held : Bool} {queue : Queue}
    (worker : s.past.operations[call]? = some (.process lease))
    (acked : s.backend.queue.ack lease.token = .ok (held, queue)) :
    Tracked ⟨{ s.backend with queue }, calls,
      s.past ++ [.answered call (.ack lease.token) (.ok held)]⟩ := by
  obtain ⟨isHeld, rfl⟩ := Queue.ack_eq_ok acked
  have kept : (s.backend.queue.leased.filter fun held => held.token != lease.token).Sublist
      s.backend.queue.leased := List.filter_sublist
  cases held with
  | true =>
      obtain ⟨held, mem, same⟩ := List.any_eq_true.mp isHeld
      have same := eq_of_beq same
      obtain ⟨owner, granted, token, job⟩ := h.held held mem
      obtain rfl : owner = lease := h.leases owner granted lease
        (h.workers lease (List.mem_of_getElem? worker)) (token.trans same)
      have parted := (Queue.liveJobs_release h.tokens mem).map Job.key
      rw [List.map_cons, same, ← job] at parted
      refine h.released parted kept rfl rfl rfl fun key => ?_
      refine ⟨fun gone => ?_, fun same => .acked worker same⟩
      cases gone with
      | acked worker' same =>
          cases worker.symm.trans worker'
          exact same
  | false =>
      have all : s.backend.queue.leased.filter (fun held => held.token != lease.token) =
          s.backend.queue.leased := by
        refine List.filter_eq_self.mpr fun held mem => ?_
        exact bne_iff_ne.mpr fun same =>
          List.any_eq_false.mp isHeld held mem (beq_iff_eq.mpr same)
      refine h.quiet ?_ rfl rfl rfl rfl
      simp only [all]

theorem Tracked.enqueued (h : s.Tracked) {call : Nat} {job : Job} {queue : Queue}
    (pushed : s.backend.queue.enqueue job = .ok queue) :
    Tracked ⟨{ s.backend with queue }, calls,
      s.past ++ [.answered call (.enqueue job) (.ok ())]⟩ := by
  obtain rfl := Queue.enqueue_eq_ok pushed
  refine h.snoc (Queue.nodup_keys_push h.keys) (Queue.leased_push _ _) rfl
    (by simp [Happening.operation?]) fun key => ?_
  rw [Queue.mem_keys_push]
  constructor
  · rintro (rfl | old)
    · exact .inl ⟨job, rfl, rfl⟩
    · refine .inr ⟨old, fun gone => ?_⟩
      cases gone
  · rintro (⟨_, same, rfl⟩ | ⟨old, _⟩)
    · cases same
      exact .inl rfl
    · exact .inr old

theorem Tracked.advance (h : s.Tracked) (keeping : s.Keeping (contract d.policy)) {call : Nat}
    {choice : Choice} {op : Operation} {r : Request} {next : r.Reply → Prog op.Result}
    {step : Backend.Step r.Reply} (asks : s.calls[call]? = some ⟨op, .ask r next⟩)
    (answered : s.backend.answer choice r = some step) :
    Tracked ⟨step.backend, calls, s.past ++ [.answered call r step.reply]⟩ := by
  cases r with
  | enqueue job =>
      cases answered
      simp only [Backend.enqueue]
      split
      · exact h.enqueued ‹_›
      · exact h.quiet rfl rfl rfl rfl rfl
  | ack token =>
      cases answered
      obtain ⟨lease, rfl, rfl, _⟩ := (keeping.keeps call _ asks s.past (List.prefix_refl _)).1
      have worker : s.past.operations[call]? = some (.process lease) := by
        rw [keeping.operations, List.getElem?_map, asks, Option.map_some]
      simp only [Backend.ack]
      split
      · exact h.acked worker ‹_›
      · exact h.quiet rfl rfl rfl rfl rfl
  | insert n =>
      cases answered
      refine h.quiet ?_ rfl rfl rfl rfl
      simp only [Backend.insert]
      split <;> rfl
  | update n =>
      cases answered
      refine h.quiet ?_ rfl rfl rfl rfl
      simp only [Backend.update]
      split <;> rfl
  | draw bound =>
      simp only [Backend.answer] at answered
      split at answered
      · cases answered
        exact h.quiet rfl rfl rfl rfl rfl
      · cases answered
  | now | freshId | get | scan | depth | send =>
      cases answered
      exact h.quiet rfl rfl rfl rfl rfl
  | wallSeconds | lease | pause | probe | remembered | settle | endWatch | acquire | introspect =>
      cases answered

theorem Tracked.step (h : s.Tracked) (keeping : s.Keeping (contract d.policy))
    (moved : Step d s m next) : next.Tracked := by
  cases moved with
  | @begin op permitted =>
      refine h.snoc h.keys (List.Sublist.refl _) rfl (fun lease same => ?_) fun key => ?_
      · cases same
        simpa [Past.permits] using permitted
      · have held : ¬s.past.Releases key (.began op) := by
          intro gone
          cases gone
        simp [Happening.pushed?, held]
  | advance asks answered => exact h.advance keeping asks answered
  | refused => exact h
  | @idle leaseFor token queue tried =>
      have spec := Queue.tryLease_spec s.backend.queue s.backend.clock leaseFor token
      rw [tried] at spec
      rw [leasing, List.append_nil]
      exact h.reclaimed (spec.1.map Job.key) spec.2
  | @leased leaseFor token lease queue fresh tried =>
      have spec := Queue.tryLease_spec s.backend.queue s.backend.clock leaseFor token
      rw [tried] at spec
      obtain ⟨same, entry, kept, before, after, _, job, rfl⟩ := spec
      exact h.leased (same.map Job.key) fresh before after job
  | @dropped leaseFor token queue tried =>
      have spec := Queue.tryLease_spec s.backend.queue s.backend.clock leaseFor token
      rw [tried] at spec
      obtain ⟨kept, entry, first, parted⟩ := spec
      rw [leasing, offered, first]
      refine h.released (parted.map Job.key) kept rfl rfl rfl fun key => ?_
      refine ⟨fun gone => ?_, fun same => .dropped same⟩
      cases gone with
      | dropped same => exact same
  | setClock => exact h.reclaimed (List.Perm.refl _) (List.Sublist.refl _)
  | setAvailable => exact h.reclaimed (List.Perm.refl _) (List.Sublist.refl _)

theorem tracked_of_reachable {allowed : Pipeline → Move → Prop} {clock : Instant}
    (reached : Reachable d allowed clock s) : s.Tracked := by
  induction reached with
  | initial => exact tracked_initial clock
  | step before _ moved ih =>
      exact ih.step (keeping_of_reachable (contract_kept d) before) (step_of_step? moved)

end Pipeline
end Courier
