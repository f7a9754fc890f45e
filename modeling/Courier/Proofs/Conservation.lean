import Courier.Proofs.QueueHistory

namespace Courier

/-- An exchange with the queue that ends a lease: its holder acknowledges the job, the same attempt
is put on the queue again, or somebody asks for a job when the lease has run out. -/
inductive Lease.EndedBy (lease : Lease) : Queue.Exchange → Prop
  | acked : lease.EndedBy ⟨.ack lease.token, .acked true⟩
  | revoked {job : Job} {added : Bool} (same : job.key = lease.job.key) :
      lease.EndedBy ⟨.enqueue job, .enqueued added⟩
  | ranOut {now : Instant} {leaseFor : Duration} {token : Uuid} {attempt : Queue.Attempt}
      (expired : lease.expiresAt ≤ now) : lease.EndedBy ⟨.lease now leaseFor token, .tried attempt⟩

namespace Queue

def Held.lease (held : Held) : Lease := ⟨held.entry.job, held.token, held.expiresAt⟩

def leases (q : Queue) : List Lease := q.leased.map Held.lease

namespace History

/-- The lease was given out, and this is what has happened since. -/
def Grants (history : History) (lease : Lease) (since : History) : Prop :=
  ∃ before access, history = before ++ ⟨access, .tried (.leased lease)⟩ :: since

/-- The lease was given out and has not ended. -/
def Holds (history : History) (lease : Lease) : Prop :=
  ∃ since, history.Grants lease since ∧ ∀ exchange ∈ since, ¬lease.EndedBy exchange

/-- After this history, the exchange takes the job for the attempt off the queue: it was
acknowledged under a lease on it. -/
def Releases (history : History) (key : Job.Key) (exchange : Exchange) : Prop :=
  ∃ lease ∈ history.leases, lease.job.key = key ∧ exchange = ⟨.ack lease.token, .acked true⟩

/-- A job for the attempt was put on the queue, and has not been taken off since. -/
inductive Outstanding (key : Job.Key) : History → Prop
  | enqueued {history : History} {job : Job} {added : Bool} (own : job.key = key) :
      Outstanding key (history ++ [⟨.enqueue job, .enqueued added⟩])
  | kept {history : History} {exchange : Exchange} (outstanding : Outstanding key history)
      (unreleased : ¬history.Releases key exchange) : Outstanding key (history ++ [exchange])

variable {history : History} {exchange : Exchange} {lease : Lease} {key : Job.Key}

theorem lease?_eq_some : exchange.lease? = some lease ↔
    ∃ access, exchange = ⟨access, .tried (.leased lease)⟩ := by
  obtain ⟨access, answer⟩ := exchange
  constructor
  · intro given
    unfold Exchange.lease? at given
    split at given
    · rename_i same
      cases given
      exact ⟨_, same⟩
    · cases given
  · rintro ⟨_, same⟩
    rw [same]
    rfl

theorem arrival?_eq_some {job : Job} : exchange.arrival? = some job ↔
    exchange = ⟨.enqueue job, .enqueued true⟩ := by
  constructor
  · intro arrived
    unfold Exchange.arrival? at arrived
    split at arrived
    · cases arrived
      rfl
    · cases arrived
  · rintro rfl
    rfl

theorem arrivals_snoc (history : History) (exchange : Exchange) :
    arrivals (history ++ [exchange]) = history.arrivals ++ exchange.arrival?.toList := by
  cases arrived : exchange.arrival? <;> simp [arrivals, arrived]

theorem nodup_tokens_of_append {rest : History} (fresh : (history ++ rest).tokens.Nodup) :
    history.tokens.Nodup := by
  rw [tokens, leases, List.filterMap_append, List.map_append] at fresh
  exact (List.nodup_append.mp fresh).1

theorem holds_snoc : Holds (history ++ [exchange]) lease ↔
    exchange.lease? = some lease ∨ history.Holds lease ∧ ¬lease.EndedBy exchange := by
  constructor
  · rintro ⟨since, ⟨before, access, split⟩, lasting⟩
    rcases snoc_eq_split split with ⟨rfl, rfl, rfl⟩ | ⟨rest, rfl, rfl⟩
    · exact .inl rfl
    · refine .inr ⟨⟨rest, ⟨before, access, rfl⟩, fun x mem => ?_⟩, ?_⟩
      · exact lasting x (List.mem_append_left _ mem)
      · exact lasting exchange (List.mem_append_right _ List.mem_cons_self)
  · rintro (given | ⟨⟨since, ⟨before, access, rfl⟩, lasting⟩, goes_on⟩)
    · obtain ⟨access, rfl⟩ := lease?_eq_some.mp given
      exact ⟨[], ⟨history, access, rfl⟩, fun x mem => nomatch mem⟩
    · refine ⟨since ++ [exchange], ⟨before, access, by simp⟩, fun x mem => ?_⟩
      rcases List.mem_append.mp mem with earlier | last
      · exact lasting x earlier
      · obtain rfl := List.mem_singleton.mp last
        exact goes_on

theorem Holds.mem_leases (h : history.Holds lease) : lease ∈ history.leases := by
  obtain ⟨since, ⟨before, access, rfl⟩, _⟩ := h
  exact List.mem_filterMap.mpr
    ⟨_, List.mem_append_right _ List.mem_cons_self, lease?_eq_some.mpr ⟨access, rfl⟩⟩

theorem outstanding_snoc : Outstanding key (history ++ [exchange]) ↔
    (∃ job added, exchange = ⟨.enqueue job, .enqueued added⟩ ∧ job.key = key) ∨
      history.Outstanding key ∧ ¬history.Releases key exchange := by
  constructor
  · intro outstanding
    generalize whole : history ++ [exchange] = joined at outstanding
    cases outstanding with
    | enqueued own =>
        obtain ⟨rfl, rfl⟩ := List.append_singleton_inj.mp whole
        exact .inl ⟨_, _, rfl, own⟩
    | kept outstanding unreleased =>
        obtain ⟨rfl, rfl⟩ := List.append_singleton_inj.mp whole
        exact .inr ⟨outstanding, unreleased⟩
  · rintro (⟨job, added, rfl, own⟩ | ⟨outstanding, unreleased⟩)
    · exact .enqueued own
    · exact .kept outstanding unreleased

theorem outstanding_snoc_of_quiet (unasked : ∀ added, exchange.answer ≠ .enqueued added)
    (unacked : exchange.answer ≠ .acked true) :
    Outstanding key (history ++ [exchange]) ↔ history.Outstanding key := by
  rw [outstanding_snoc]
  constructor
  · rintro (⟨job, added, rfl, _⟩ | ⟨outstanding, _⟩)
    · exact absurd rfl (unasked added)
    · exact outstanding
  · intro outstanding
    refine .inr ⟨outstanding, ?_⟩
    rintro ⟨lease, _, _, rfl⟩
    exact unacked rfl

end History

variable {q after : Queue} {history : History} {access : Access} {answer : Answer} {lease : Lease}
  {key : Job.Key}

theorem mem_leases : lease ∈ q.leases ↔ ∃ held ∈ q.leased, held.lease = lease := List.mem_map

theorem mem_leases_of_filter {exchange : Exchange} {p : Held → Bool}
    (leased : after.leased = q.leased.filter p)
    (ends : ∀ held ∈ q.leased, p held = true ↔ ¬held.lease.EndedBy exchange) :
    lease ∈ after.leases ↔ lease ∈ q.leases ∧ ¬lease.EndedBy exchange := by
  rw [mem_leases, mem_leases, leased]
  constructor
  · rintro ⟨held, mem, rfl⟩
    obtain ⟨mem, kept⟩ := List.mem_filter.mp mem
    exact ⟨⟨held, mem, rfl⟩, (ends held mem).mp kept⟩
  · rintro ⟨⟨held, mem, rfl⟩, lasting⟩
    exact ⟨held, List.mem_filter.mpr ⟨mem, (ends held mem).mpr lasting⟩, rfl⟩

theorem key_ne_of_isWaiting (keys : q.keys.Nodup) (waits : q.isWaiting key = true) :
    ∀ held ∈ q.leased, held.entry.job.key ≠ key := by
  intro held mem same
  obtain ⟨e, waiting, own⟩ := List.any_eq_true.mp waits
  rw [keys_eq] at keys
  obtain ⟨_, _, apart⟩ := List.nodup_append.mp keys
  exact apart _ (List.mem_map.mpr ⟨e, waiting, rfl⟩) _ (List.mem_map.mpr ⟨held, mem, rfl⟩)
    ((eq_of_beq own).trans same.symm)

/-- The leases that are held after an exchange: one that was given out in it, and those that it has
not ended. -/
theorem Served.mem_leases (served : Served q access answer after) (keys : q.keys.Nodup) :
    lease ∈ after.leases ↔ Exchange.lease? ⟨access, answer⟩ = some lease ∨
      lease ∈ q.leases ∧ ¬lease.EndedBy ⟨access, answer⟩ := by
  cases served with
  | refused down =>
      refine (iff_self_and.mpr fun _ => ?_).trans (or_iff_right nofun).symm
      exact nofun
  | @waiting job waits =>
      refine (iff_self_and.mpr fun mem => ?_).trans (or_iff_right nofun).symm
      obtain ⟨held, own, rfl⟩ := Queue.mem_leases.mp mem
      rintro (_ | same)
      exact key_ne_of_isWaiting keys waits held own same.symm
  | @added job absent =>
      refine Iff.trans ?_ (or_iff_right nofun).symm
      rw [push_of_absent absent]
      refine mem_leases_of_filter (p := fun held => held.entry.job.key != job.key) rfl
        fun held _ => ?_
      rw [bne_iff_ne]
      refine not_congr ⟨fun same => .revoked same.symm, ?_⟩
      rintro (_ | same)
      exact same.symm
  | @tried now leaseFor token attempt after tried =>
      have reclaimed : lease ∈ (q.reclaim now).leases ↔
          lease ∈ q.leases ∧ ¬lease.EndedBy ⟨.lease now leaseFor token, .tried attempt⟩ := by
        refine mem_leases_of_filter rfl fun held _ => ?_
        rw [Bool.not_eq_true', decide_eq_false_iff_not]
        refine not_congr ⟨fun expired => .ranOut expired, ?_⟩
        rintro (_ | _ | expired)
        exact expired
      cases tried with
      | nothing => exact reclaimed.trans (or_iff_right nofun).symm
      | outOfRange => exact reclaimed.trans (or_iff_right nofun).symm
      | leased next ends =>
          rw [← reclaimed, Queue.mem_leases, Queue.mem_leases]
          simp only [List.mem_append, List.mem_singleton, or_and_right, exists_or, exists_eq_left]
          rw [or_comm]
          exact or_congr_left Option.some_inj.symm
  | @acked token =>
      refine Iff.trans ?_ (or_iff_right nofun).symm
      refine mem_leases_of_filter rfl fun held mem => ?_
      generalize answered : (q.leased.any fun held => held.token == token) = isHeld
      rw [bne_iff_ne]
      refine not_congr ⟨fun own => ?_, ?_⟩
      · obtain rfl : isHeld = true :=
          answered.symm.trans (List.any_eq_true.mpr ⟨held, mem, beq_iff_eq.mpr own⟩)
        obtain rfl := own
        exact .acked
      · rintro (_ | _)
        rfl
  | switched =>
      refine (iff_self_and.mpr fun _ => ?_).trans (or_iff_right nofun).symm
      exact nofun

theorem Tried.less {now : Instant} {leaseFor : Duration} {token : Uuid} {attempt : Attempt}
    (tried : Tried q now leaseFor token attempt after) :
    after.entries.Subperm q.entries ∧ after.nextSequence = q.nextSequence := by
  have same := entries_reclaim q now
  cases tried with
  | nothing => exact ⟨same.subperm, rfl⟩
  | leased next =>
      exact ⟨((entries_take (mem_of_nextVisible next).1 _ _).trans same).subperm, rfl⟩
  | @outOfRange entry next =>
      have taken : ((q.reclaim now).waiting.erase entry).Sublist (q.reclaim now).waiting :=
        List.erase_sublist
      exact ⟨(taken.append (.refl _)).subperm.trans same.subperm, rfl⟩

theorem Served.less (served : Served q access answer after)
    (none : Exchange.arrival? ⟨access, answer⟩ = none) :
    after.entries.Subperm q.entries ∧ after.nextSequence = q.nextSequence := by
  cases served with
  | refused | waiting | switched => exact ⟨.refl _, rfl⟩
  | added => cases none
  | tried tried => exact tried.less
  | acked =>
      exact ⟨((List.Sublist.refl _).append (List.filter_sublist.map Held.entry)).subperm, rfl⟩

/-- What a queue owes to its history. -/
structure Kept (history : History) (q : Queue) : Prop where
  keys : q.keys.Nodup
  count : q.nextSequence = history.arrivals.length
  arrived : ∀ e ∈ q.entries, history.arrivals[e.sequence]? = some e.job
  held : ∀ lease, lease ∈ q.leases ↔ history.Holds lease

theorem kept_empty : Kept [] empty where
  keys := List.nodup_nil
  count := rfl
  arrived _ mem := absurd mem List.not_mem_nil
  held lease := by
    refine ⟨fun mem => absurd mem List.not_mem_nil, ?_⟩
    rintro ⟨since, ⟨before, access, split⟩, _⟩
    exact absurd split (List.append_ne_nil_of_right_ne_nil _ (List.cons_ne_nil _ _)).symm

theorem nodup_keys_of_entries (keys : q.keys.Nodup) (less : after.entries.Subperm q.entries) :
    after.keys.Nodup := by
  rw [keys_eq_entries] at keys ⊢
  exact nodup_map_of_subperm keys less

theorem Kept.rearranged (h : Kept history q) (same : Rearranged q after) : Kept history after where
  keys := nodup_keys_of_entries h.keys same.entries.subperm
  count := same.nextSequence.trans h.count
  arrived e mem := h.arrived e (same.entries.subset mem)
  held lease := ((same.leased.map Held.lease).mem_iff).trans (h.held lease)

theorem Kept.served (h : Kept history q) (served : Served q access answer after) :
    Kept (history ++ [⟨access, answer⟩]) after := by
  have held : ∀ lease, lease ∈ after.leases ↔
      History.Holds (history ++ [⟨access, answer⟩]) lease := by
    intro lease
    rw [History.holds_snoc, served.mem_leases h.keys, h.held]
  cases arrives : Exchange.arrival? ⟨access, answer⟩ with
  | none =>
      obtain ⟨less, count⟩ := served.less arrives
      have arrivals : History.arrivals (history ++ [⟨access, answer⟩]) = history.arrivals := by
        rw [History.arrivals_snoc, arrives, Option.toList_none, List.append_nil]
      refine ⟨nodup_keys_of_entries h.keys less, ?_, ?_, held⟩
      · rw [count, arrivals]
        exact h.count
      · intro e mem
        rw [arrivals]
        exact h.arrived e (less.subset mem)
  | some job =>
      have arrivals : History.arrivals (history ++ [⟨access, answer⟩]) =
          history.arrivals ++ [job] := by
        rw [History.arrivals_snoc, arrives, Option.toList_some]
      obtain ⟨rfl, rfl⟩ := Exchange.mk.inj (History.arrival?_eq_some.mp arrives)
      cases served with
      | added absent =>
          refine ⟨?_, ?_, ?_, held⟩
          · exact nodup_keys_push h.keys
          · rw [arrivals, List.length_append, ← h.count, push_of_absent absent]
            rfl
          · intro e mem
            rw [arrivals]
            rcases mem_entries_push mem with rfl | old
            · exact h.count ▸ List.getElem?_concat_length
            · have known := h.arrived e old
              obtain ⟨bound, _⟩ := List.getElem?_eq_some_iff.mp known
              rwa [List.getElem?_append_left bound]

theorem kept_of_runs (runs : Runs empty history q) : Kept history q := by
  induction runs with
  | start => exact kept_empty
  | rearranged _ same ih => exact ih.rearranged same
  | served _ served ih => exact ih.served (served_of_serve served)

theorem Kept.nodup_tokens (h : Kept history q) (fresh : history.tokens.Nodup) : q.tokens.Nodup := by
  have keys := h.keys
  rw [keys_eq] at keys
  obtain ⟨_, held, _⟩ := List.nodup_append.mp keys
  have leases : q.leases.Nodup := by
    refine List.Nodup.of_map (fun lease => lease.job.key) ?_
    rw [Queue.leases, List.map_map]
    exact held
  have tokens : q.tokens = q.leases.map Lease.token := by
    rw [Queue.leases, List.map_map]
    rfl
  rw [tokens]
  refine List.Nodup.map_on (fun a first b second same => ?_) leases
  exact List.inj_on_of_nodup_map fresh ((h.held a).mp first).mem_leases
    ((h.held b).mp second).mem_leases same

theorem mem_keys_of_perm (same : after.entries.Perm q.entries) :
    key ∈ after.keys ↔ key ∈ q.keys := by
  rw [keys_eq_entries, keys_eq_entries]
  exact (same.map _).mem_iff

theorem filter_of_not_held {token : Uuid}
    (free : (q.leased.any fun held => held.token == token) = false) :
    { q with leased := q.leased.filter fun held => held.token != token } = q := by
  have kept : (q.leased.filter fun held => held.token != token) = q.leased := by
    refine List.filter_eq_self.mpr fun held mem => bne_iff_ne.mpr fun own => ?_
    exact List.any_eq_false.mp free held mem (beq_iff_eq.mpr own)
  rw [kept]

/-- Under a lease on it, no job but the one that is held is taken off the queue. -/
theorem Kept.mem_keys_release {held : Held} (h : Kept history q) (fresh : history.tokens.Nodup)
    (mem : held ∈ q.leased) :
    key ∈ Queue.keys { q with leased := q.leased.filter fun other => other.token != held.token } ↔
      key ∈ q.keys ∧ key ≠ held.entry.job.key := by
  have parted := (liveJobs_release (h.nodup_tokens fresh) mem).map Job.key
  obtain ⟨gone, _⟩ := List.nodup_cons.mp (parted.nodup_iff.mp h.keys)
  constructor
  · intro live
    refine ⟨parted.mem_iff.mpr (List.mem_cons_of_mem _ live), ?_⟩
    rintro rfl
    exact gone live
  · rintro ⟨live, other⟩
    exact (List.mem_cons.mp (parted.mem_iff.mp live)).resolve_left other

theorem Kept.outstanding_release {held : Held} (h : Kept history q) (fresh : history.tokens.Nodup)
    (mem : held ∈ q.leased) :
    History.Outstanding key (history ++ [⟨.ack held.token, .acked true⟩]) ↔
      history.Outstanding key ∧ key ≠ held.entry.job.key := by
  have given : held.lease ∈ history.leases :=
    ((h.held _).mp (mem_leases.mpr ⟨held, mem, rfl⟩)).mem_leases
  have released : history.Releases key ⟨.ack held.token, .acked true⟩ ↔
      key = held.entry.job.key := by
    constructor
    · rintro ⟨lease, known, own, same⟩
      have tokens : held.token = lease.token := Access.ack.inj (Exchange.mk.inj same).1
      obtain rfl : held.lease = lease := List.inj_on_of_nodup_map fresh given known tokens
      exact own.symm
    · rintro rfl
      exact ⟨held.lease, given, rfl, rfl⟩
  rw [History.outstanding_snoc, not_congr released]
  refine or_iff_right ?_
  rintro ⟨_, _, same, _⟩
  cases same

/-- An exchange changes which attempts have a live job as it changes which are outstanding. -/
theorem Kept.live (h : Kept history q) (served : Served q access answer after)
    (fresh : history.tokens.Nodup) (inRange : answer ≠ .tried .outOfRange)
    (live : ∀ key, key ∈ q.keys ↔ history.Outstanding key) (key : Job.Key) :
    key ∈ after.keys ↔ History.Outstanding key (history ++ [⟨access, answer⟩]) := by
  have quiet := @History.outstanding_snoc_of_quiet history ⟨access, answer⟩ key
  have asked {job : Job} {added : Bool} : History.Outstanding key
      (history ++ [⟨.enqueue job, .enqueued added⟩]) ↔ key = job.key ∨ key ∈ q.keys := by
    rw [History.outstanding_snoc, live]
    constructor
    · rintro (⟨_, _, same, own⟩ | ⟨outstanding, _⟩)
      · cases same
        exact .inl own.symm
      · exact .inr outstanding
    · rintro (own | outstanding)
      · exact .inl ⟨job, added, rfl, own.symm⟩
      · refine .inr ⟨outstanding, ?_⟩
        rintro ⟨_, _, _, same⟩
        cases same
  cases served with
  | refused | switched => exact (live key).trans (quiet nofun nofun).symm
  | @waiting job waits =>
      refine Iff.trans ?_ asked.symm
      have known : job.key ∈ q.keys := by
        have pushed : job.key ∈ (q.push job).keys := mem_keys_push.mpr (.inl rfl)
        rwa [push_of_waiting waits] at pushed
      exact (or_iff_right_of_imp fun own => own ▸ known).symm
  | added absent => exact mem_keys_push.trans asked.symm
  | tried tried =>
      refine Iff.trans ?_ ((live key).trans (quiet nofun nofun).symm)
      have same := entries_reclaim q
      cases tried with
      | nothing => exact mem_keys_of_perm (same _)
      | leased next =>
          exact mem_keys_of_perm ((entries_take (mem_of_nextVisible next).1 _ _).trans (same _))
      | outOfRange => exact absurd rfl inRange
  | @acked token =>
      generalize answered : (q.leased.any fun held => held.token == token) = isHeld at quiet
      cases isHeld with
      | false =>
          rw [filter_of_not_held answered]
          exact (live key).trans (quiet nofun nofun).symm
      | true =>
          obtain ⟨held, mem, own⟩ := List.any_eq_true.mp answered
          obtain rfl := eq_of_beq own
          exact (h.mem_keys_release fresh mem).trans
            ((and_congr_left' (live key)).trans (h.outstanding_release fresh mem).symm)

theorem live_iff_outstanding (runs : Runs empty history q) (fresh : history.tokens.Nodup)
    (inRange : ∀ exchange ∈ history, exchange.answer ≠ .tried .outOfRange) (key : Job.Key) :
    key ∈ q.keys ↔ history.Outstanding key := by
  induction runs generalizing key with
  | start =>
      refine ⟨fun mem => absurd mem List.not_mem_nil, fun outstanding => ?_⟩
      generalize whole : ([] : History) = joined at outstanding
      cases outstanding with
      | enqueued | kept => simp at whole
  | rearranged _ same ih => exact (mem_keys_of_perm same.entries).trans (ih fresh inRange key)
  | served runs served ih =>
      have before := History.nodup_tokens_of_append fresh
      exact (kept_of_runs runs).live (served_of_serve served) before
        (inRange _ (List.mem_append_right _ List.mem_cons_self))
        (ih before fun x mem => inRange x (List.mem_append_left _ mem)) key

theorem Kept.nodup_sequences (h : Kept history q) : (q.entries.map Entry.sequence).Nodup := by
  have keys := h.keys
  rw [keys_eq_entries] at keys
  refine List.Nodup.map_on (fun a first b second same => ?_) keys.of_map
  have job : a.job = b.job := by
    have known := h.arrived b second
    rw [← same, h.arrived a first] at known
    exact Option.some.inj known
  cases a
  cases b
  exact congrArg₂ Entry.mk same job

theorem liveJobs_of_key {job : Job} (keys : q.keys.Nodup) (live : job ∈ q.liveJobs) :
    (q.liveJobs.filter fun other => other.key == job.key) = [job] := by
  have parted := (perm_cons_filter Job.key keys live).filter fun other => other.key == job.key
  have none : (q.liveJobs.filter fun other => other.key == job.key && other.key != job.key) = [] :=
    List.filter_eq_nil_iff.mpr fun other _ both => by simp at both
  have own : (job.key == job.key) = true := beq_self_eq_true _
  rw [List.filter_cons, if_pos own, List.filter_filter, none] at parted
  exact List.perm_singleton.mp parted

/-- The queue has lost no job and doubled none. A job whose attempt waits already changes nothing,
any other takes the place of all jobs for its attempt, and what is refused changes nothing. -/
structure Conserved (history : History) (q : Queue) : Prop where
  keys : q.keys.Nodup
  sequences : (q.entries.map Entry.sequence).Nodup
  below : ∀ e ∈ q.entries, e.sequence < q.nextSequence
  live : ∀ key, key ∈ q.keys ↔ history.Outstanding key
  repeated : ∀ job added after, q.serve (.enqueue job) = (.enqueued added, after) →
    q.isWaiting job.key = true → after = q
  renewed : ∀ job added after, q.serve (.enqueue job) = (.enqueued added, after) →
    q.isWaiting job.key = false →
      (after.liveJobs.filter fun other => other.key == job.key) = [job] ∧
        job ∈ after.waiting.map Entry.job
  refused : ∀ access after, q.serve access = (.refused, after) → after = q

/-- In every run in which tokens are fresh and no lease ends beyond all dates, the queue has lost no
job and doubled none. -/
theorem queue_conserved (runs : Runs empty history q) (fresh : history.tokens.Nodup)
    (inRange : ∀ exchange ∈ history, exchange.answer ≠ .tried .outOfRange) :
    Conserved history q := by
  have kept := kept_of_runs runs
  refine ⟨kept.keys, kept.nodup_sequences, ?_, live_iff_outstanding runs fresh inRange, ?_, ?_, ?_⟩
  · intro e mem
    obtain ⟨bound, _⟩ := List.getElem?_eq_some_iff.mp (kept.arrived e mem)
    rwa [kept.count]
  · intro job added after served waits
    cases served_of_serve served with
    | waiting => rfl
    | added absent => cases absent.symm.trans waits
  · intro job added after served absent
    cases served_of_serve served with
    | waiting waits => cases absent.symm.trans waits
    | added =>
        have waiting : job ∈ (q.push job).waiting.map Entry.job := by
          rw [push_of_absent absent, List.map_append]
          exact List.mem_append_right _ List.mem_cons_self
        exact ⟨liveJobs_of_key (nodup_keys_push kept.keys) (List.mem_append_left _ waiting),
          waiting⟩
  · intro access after served
    cases served_of_serve served with
    | refused => rfl

namespace Sample

def job : Job := ⟨⟨1#128⟩, 0, .ofSecond 0, .ofSecond 0⟩

def leaseUntil (token : BitVec 128) (expires : Int) : Lease := ⟨job, ⟨token⟩, .ofSecond expires⟩

def tryAt (now : Int) (token : BitVec 128) : Access :=
  .lease (.ofSecond now) (.ofSeconds 60) ⟨token⟩

/-- A job is put on the queue again while it is held, runs out in the hands of its next holder, and
is acknowledged by the third. -/
def acknowledgedLate : History :=
  [⟨.enqueue job, .enqueued true⟩,
    ⟨tryAt 0 10, .tried (.leased (leaseUntil 10 60))⟩,
    ⟨.enqueue job, .enqueued true⟩,
    ⟨.enqueue job, .enqueued false⟩,
    ⟨.ack ⟨10⟩, .acked false⟩,
    ⟨tryAt 9 11, .tried (.leased (leaseUntil 11 69))⟩,
    ⟨.setAvailable false, .switched⟩,
    ⟨.ack ⟨11⟩, .refused⟩,
    ⟨.setAvailable true, .switched⟩,
    ⟨tryAt 69 12, .tried (.leased (leaseUntil 12 129))⟩,
    ⟨tryAt 3 13, .tried .nothing⟩,
    ⟨.ack ⟨11⟩, .acked false⟩,
    ⟨.ack ⟨12⟩, .acked true⟩]

end Sample

/-- The job that was put on the queue again while it was held has been acknowledged once, and no job
is left. -/
theorem conserved_when_acked_late : ∃ q, Runs empty Sample.acknowledgedLate q ∧ q.liveJobs = [] ∧
    Sample.acknowledgedLate.tokens.Nodup ∧
    (∀ exchange ∈ Sample.acknowledgedLate, exchange.answer ≠ .tried .outOfRange) ∧
    Conserved Sample.acknowledgedLate q := by
  have replayed : ∃ q, empty.replay (Sample.acknowledgedLate.map Exchange.access) =
      (Sample.acknowledgedLate, q) ∧ q.liveJobs = [] := ⟨_, rfl, rfl⟩
  obtain ⟨q, replayed, none⟩ := replayed
  have runs : Runs empty Sample.acknowledgedLate q := runs_of_replay replayed
  have fresh : Sample.acknowledgedLate.tokens.Nodup := by decide
  have inRange : ∀ exchange ∈ Sample.acknowledgedLate, exchange.answer ≠ .tried .outOfRange := by
    simp [Sample.acknowledgedLate]
  exact ⟨q, runs, none, fresh, inRange, queue_conserved runs fresh inRange⟩

end Queue
end Courier
