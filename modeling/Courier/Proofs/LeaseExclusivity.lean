import Courier.Proofs.Conservation

namespace Courier.Queue

variable {q after : Queue} {history since later : History} {lease other : Lease} {token : Uuid}

namespace History

theorem Grants.append (h : history.Grants lease since) (more : History) :
    Grants (history ++ more) lease (since ++ more) := by
  obtain ⟨before, access, rfl⟩ := h
  exact ⟨before, access, by simp⟩

theorem Grants.until (h : history.Grants lease (since ++ later)) :
    ∃ first : History, history = first ++ later ∧ first.Grants lease since := by
  obtain ⟨before, access, rfl⟩ := h
  exact ⟨before ++ ⟨access, .tried (.leased lease)⟩ :: since, by simp, before, access, rfl⟩

theorem mem_tokens_of_mem {exchange : Exchange} (mem : exchange ∈ history)
    (given : exchange.lease? = some lease) : lease.token ∈ history.tokens :=
  List.mem_map.mpr ⟨lease, List.mem_filterMap.mpr ⟨exchange, mem, given⟩, rfl⟩

/-- Where tokens are fresh, a token tells which lease it belongs to and when that was given out. -/
theorem Grants.unique (fresh : history.tokens.Nodup) (first : history.Grants lease since)
    (second : history.Grants other later) (same : other.token = lease.token) :
    lease = other ∧ since = later := by
  obtain ⟨before, access, rfl⟩ := first
  obtain ⟨before', access', split⟩ := second
  have parts : History.tokens (before ++ ⟨access, .tried (.leased lease)⟩ :: since) =
      tokens before ++ lease.token :: since.tokens := by
    simp [tokens, leases, Exchange.lease?]
  rw [parts] at fresh
  obtain ⟨_, rest, apart⟩ := List.nodup_append.mp fresh
  obtain ⟨absent, _⟩ := List.nodup_cons.mp rest
  have elsewhere {part : History} (absent : lease.token ∉ part.tokens) : ∀ x ∈ part,
      (x.lease?.any fun l => l.token == lease.token) = false := by
    intro x mem
    cases given : x.lease? with
    | none => rfl
    | some l =>
        refine beq_eq_false_iff_ne.mpr fun alike => absent ?_
        exact alike ▸ mem_tokens_of_mem mem given
  have before_absent : lease.token ∉ tokens before := fun mem =>
    apart _ mem _ List.mem_cons_self rfl
  obtain ⟨alike, rfl⟩ := split_unique (p := fun x => x.lease?.any fun l => l.token == lease.token)
    split (beq_iff_eq.mpr same) (elsewhere before_absent) (elsewhere absent)
  cases alike
  exact ⟨rfl, rfl⟩

end History

theorem serve_ack_of_free (free : token ∉ q.tokens) :
    q.serve (.ack token) = (if q.available then .acked false else .refused, q) := by
  have unheld : (q.leased.any fun held => held.token == token) = false := by
    refine List.any_eq_false.mpr fun held mem own => free ?_
    exact eq_of_beq own ▸ List.mem_map.mpr ⟨held, mem, rfl⟩
  cases up : q.available with
  | false => simp [serve, ack, up]
  | true =>
      have kept := filter_of_not_held unheld
      simp_all [serve, ack]

theorem serve_ack_of_held (up : q.available = true) (mem : lease ∈ q.leases) :
    (q.serve (.ack lease.token)).1 = .acked true := by
  obtain ⟨held, own, rfl⟩ := mem_leases.mp mem
  have found : (q.leased.any fun other => other.token == held.token) = true :=
    List.any_eq_true.mpr ⟨held, own, beq_self_eq_true _⟩
  simp [serve, ack, up, Held.lease, found]

theorem mem_tokens : token ∈ q.tokens ↔ ∃ lease ∈ q.leases, lease.token = token := by
  simp [tokens, leases, Held.lease]

theorem mem_tokens_of_acked (acked : q.serve (.ack token) = (.acked true, after)) :
    token ∈ q.tokens := by
  by_contra free
  rw [serve_ack_of_free free] at acked
  cases up : q.available <;> simp [up] at acked

theorem Kept.eq_of_key_eq (h : Kept history q) (first : lease ∈ q.leases)
    (second : other ∈ q.leases) (same : other.job.key = lease.job.key) : other = lease := by
  obtain ⟨a, mine, rfl⟩ := mem_leases.mp first
  obtain ⟨b, theirs, rfl⟩ := mem_leases.mp second
  have keys := h.keys
  rw [keys_eq] at keys
  obtain ⟨_, held, _⟩ := List.nodup_append.mp keys
  rw [List.inj_on_of_nodup_map held theirs mine same]

theorem no_second_lease (runs : Runs empty history q) (fresh : history.tokens.Nodup)
    (given : history.Grants lease since) (lasting : ∀ exchange ∈ since, ¬lease.EndedBy exchange)
    (mem : other ∈ since.leases) : other.job.key ≠ lease.job.key := by
  intro same
  obtain ⟨exchange, mem, granted⟩ := List.mem_filterMap.mp mem
  obtain ⟨access, rfl⟩ := History.lease?_eq_some.mp granted
  obtain ⟨between, later, rfl⟩ := List.append_of_mem mem
  obtain ⟨first, rfl, before⟩ := given.until
  obtain ⟨asked, left, run, served, _⟩ := runs.split
  have served := served_of_serve served
  have kept := kept_of_runs run
  -- the second lease is given out under the eyes of the first
  have held : lease ∈ asked.leases := (kept.held lease).mpr
    ⟨between, before, fun x mem => lasting x (List.mem_append_left _ mem)⟩
  have still : lease ∈ left.leases := (served.mem_leases kept.keys).mpr (.inr ⟨held, lasting _ mem⟩)
  have new : other ∈ left.leases := (served.mem_leases kept.keys).mpr (.inl granted)
  obtain rfl := (kept.served served).eq_of_key_eq still new same
  obtain ⟨_, twice⟩ := History.Grants.unique fresh given ⟨first, access, rfl⟩ rfl
  have length := congrArg List.length twice
  rw [List.length_append, List.length_cons] at length
  omega

theorem not_mem_tokens_of_ended (runs : Runs empty history q) (fresh : history.tokens.Nodup)
    (given : history.Grants lease since) (ended : ∃ exchange ∈ since, lease.EndedBy exchange) :
    lease.token ∉ q.tokens := by
  intro mem
  obtain ⟨other, held, same⟩ := mem_tokens.mp mem
  obtain ⟨later, again, lasting⟩ := ((kept_of_runs runs).held other).mp held
  obtain ⟨rfl, rfl⟩ := History.Grants.unique fresh given again same
  obtain ⟨exchange, mem, ends⟩ := ended
  exact lasting exchange mem ends

theorem acked_once (runs : Runs empty history q) (fresh : history.tokens.Nodup) {before : History}
    (split : history = before ++ ⟨.ack token, .acked true⟩ :: since) :
    ⟨.ack token, .acked true⟩ ∉ since := by
  intro again
  obtain ⟨between, later, rfl⟩ := List.append_of_mem again
  obtain ⟨_, _, run, served, _⟩ := (split ▸ runs).split
  obtain ⟨lease, held, rfl⟩ := mem_tokens.mp (mem_tokens_of_acked served)
  obtain ⟨past, given, _⟩ := ((kept_of_runs run).held lease).mp held
  -- the lease is over after the first acknowledgement
  have given := given.append (⟨.ack lease.token, .acked true⟩ :: between)
  have whole : history = (before ++ ⟨.ack lease.token, .acked true⟩ :: between) ++
      ⟨.ack lease.token, .acked true⟩ :: later := by
    rw [split, List.append_assoc, List.cons_append]
  rw [whole] at runs fresh
  obtain ⟨_, _, run, served, _⟩ := runs.split
  refine not_mem_tokens_of_ended run (History.nodup_tokens_of_append fresh) given ?_
    (mem_tokens_of_acked served)
  exact ⟨_, List.mem_append_right _ List.mem_cons_self, .acked⟩

/-- What leases are worth after a history: a lease that lasts is exclusive and can be acknowledged,
one that has ended changes nothing any more, and no token is acknowledged twice. -/
structure Exclusive (history : History) (q : Queue) : Prop where
  alone : ∀ lease since, history.Grants lease since →
    (∀ exchange ∈ since, ¬lease.EndedBy exchange) →
      ∀ other ∈ since.leases, other.job.key ≠ lease.job.key
  held : ∀ lease since, history.Grants lease since →
    (∀ exchange ∈ since, ¬lease.EndedBy exchange) → q.available = true →
      (q.serve (.ack lease.token)).1 = .acked true
  ended : ∀ lease since, history.Grants lease since →
    (∃ exchange ∈ since, lease.EndedBy exchange) →
      q.serve (.ack lease.token) = (if q.available then .acked false else .refused, q)
  once : ∀ token before since, history = before ++ ⟨.ack token, .acked true⟩ :: since →
    ⟨.ack token, .acked true⟩ ∉ since

/-- In every run in which tokens are fresh, a job that is held is given to nobody else, and its
lease is good for one acknowledgement, unless it has ended before. -/
theorem leases_exclusive (runs : Runs empty history q) (fresh : history.tokens.Nodup) :
    Exclusive history q where
  alone _ _ given lasting _ mem := no_second_lease runs fresh given lasting mem
  held _ since given lasting up :=
    serve_ack_of_held up (((kept_of_runs runs).held _).mpr ⟨since, given, lasting⟩)
  ended _ _ given ended := serve_ack_of_free (not_mem_tokens_of_ended runs fresh given ended)
  once _ _ _ split := acked_once runs fresh split

namespace Sample

def heldAgain : History := acknowledgedLate.take 9

end Sample

/-- One lease has ended with a push of the same attempt, and another one has been given out since,
which is still held. -/
theorem exclusive_after_revocation : ∃ q, Runs empty Sample.heldAgain q ∧ q.tokens = [⟨11⟩] ∧
    Sample.heldAgain.tokens.Nodup ∧
    Sample.heldAgain.Grants (Sample.leaseUntil 10 60) (Sample.heldAgain.drop 2) ∧
    Sample.heldAgain.Grants (Sample.leaseUntil 11 69) (Sample.heldAgain.drop 6) ∧
    Exclusive Sample.heldAgain q := by
  have replayed : ∃ q, empty.replay (Sample.heldAgain.map Exchange.access) = (Sample.heldAgain, q) ∧
      q.tokens = [⟨11⟩] := ⟨_, rfl, rfl⟩
  obtain ⟨q, replayed, held⟩ := replayed
  have runs : Runs empty Sample.heldAgain q := runs_of_replay replayed
  have fresh : Sample.heldAgain.tokens.Nodup := by decide
  exact ⟨q, runs, held, fresh, ⟨Sample.heldAgain.take 1, _, rfl⟩, ⟨Sample.heldAgain.take 5, _, rfl⟩,
    leases_exclusive runs fresh⟩

end Courier.Queue
