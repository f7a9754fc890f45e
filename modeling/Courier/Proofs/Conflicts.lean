import Courier.Proofs.LostWrites

/-!
Calls that give up because other writers were faster. Whatever a call wants a record to be, a later
version of it is that again only after a reset, so between two tries that it loses somebody else has
stored one.
-/
namespace Courier

def Happening.isReset (id : Uuid) (call : Nat) : Happening → Bool
  | .answered caller (.update _) (.ok stored) =>
    decide (caller ≠ call ∧ stored.id = id ∧ stored.status = .pending)
  | _ => false

namespace Past

variable {policy : Retry.Policy} {past start part : Past} {id : Uuid} {n m x y : Notification}
  {call j k : Nat} {w : Wanted}

def resets (past : Past) (id : Uuid) (call : Nat) : Nat := past.countP (Happening.isReset id call)

theorem resets_append (past more : Past) (id : Uuid) (call : Nat) :
    (past ++ more).resets id call = past.resets id call + more.resets id call := List.countP_append

theorem Rewrote.pending_iff (h : past.Rewrote policy call x y) :
    y.status = .pending ↔ x.status = .failed := by
  cases h with
  | intro asker seen rewrite =>
      cases rewrite with
      | queue able pending backed =>
          exact ⟨fun same => (nomatch same), fun failed => nomatch pending.symm.trans failed⟩
      | report reports queued reported job =>
          exact ⟨fun pending => absurd pending (reported.status_ne_pending queued),
            fun failed => nomatch queued.symm.trans failed⟩
      | reset able failed => exact ⟨fun _ => failed, fun _ => rfl⟩
      | restore able known wasFailed replaced same reset =>
          refine ⟨fun pending => (nomatch wasFailed.symm.trans pending), fun failed => ?_⟩
          rw [reset] at failed
          cases failed

/-- What a record was wanted to be, it comes to be again only by way of a pending version. -/
theorem Accounted.pending_between (h : past.Accounted policy)
    (first : (past.versions id)[j]? = some n) (wanted : w.Is n)
    (second : (past.versions id)[k]? = some m) (again : w.Is m) (later : j < k) :
    ∃ p y, j < p ∧ p ≤ k ∧ (past.versions id)[p]? = some y ∧ y.status = .pending := by
  cases w with
  | pending => exact ⟨k, m, later, Nat.le_refl k, second, again⟩
  | failed =>
      obtain ⟨bound, _⟩ := List.getElem?_eq_some_iff.mp second
      obtain ⟨y, next⟩ := exists_next first (by omega)
      obtain ⟨writer, wrote⟩ := getElem?_versions.mp first
      obtain ⟨caller, rewrote⟩ := getElem?_versions.mp next
      have pending := ((h id).rewrote wrote rewrote).pending_iff.mpr wanted
      exact ⟨j + 1, y, Nat.lt_succ_self j, later, next, pending⟩
  | attempt number =>
      obtain ⟨queued, rfl⟩ := wanted
      obtain ⟨queued', same⟩ := again
      obtain ⟨p, x, before, _, place, failures⟩ := h.since_pending first queued
      obtain ⟨q, y, found, pending, place', _⟩ := h.since_pending second queued'
      refine ⟨q, y, ?_, by omega, found, pending⟩
      by_contra early
      exact nomatch pending.symm.trans (failures q y (by omega) (by omega) found)

theorem place_of_latest (latest : past.latest id = some n) :
    ∃ k, (past.versions id).length = k + 1 ∧ (past.versions id)[k]? = some n := by
  rw [Past.latest, List.getLast?_eq_getElem?] at latest
  obtain ⟨bound, _⟩ := List.getElem?_eq_some_iff.mp latest
  exact ⟨_, by omega, latest⟩

/-- If the record is replaced in a part of the past, and is as it was wanted to be before and after,
then a pending version is stored in that part. -/
theorem Accounted.pending_in (h : past.Accounted policy) {after : Past}
    (split : past = start ++ part ++ after) (first : start.latest id = some n) (wanted : w.Is n)
    (changed : part.versions id ≠ []) (second : Past.latest (start ++ part) id = some m)
    (again : w.Is m) : ∃ y ∈ part.versions id, y.status = .pending := by
  obtain ⟨j, length, first⟩ := place_of_latest first
  obtain ⟨k, length', second⟩ := place_of_latest second
  have some := List.length_pos_iff.mpr changed
  rw [versions_append, List.length_append, length] at length'
  have first := versions_mono ⟨part ++ after, (split.trans (List.append_assoc _ _ _)).symm⟩ first
  have second := versions_mono ⟨after, split.symm⟩ second
  obtain ⟨p, y, low, high, found, pending⟩ := h.pending_between first wanted second again (by omega)
  rw [split, versions_append, versions_append, List.append_assoc,
    List.getElem?_append_right (by omega), List.getElem?_append_left (by omega)] at found
  exact ⟨y, List.mem_of_getElem? found, pending⟩

theorem Lawful.update_of_write {c : Contract} {e : Happening} {caller : Nat} {before after : Past}
    (h : past.Lawful c) (split : past = before ++ e :: after) (wrote : e.write? = some (caller, n))
    (known : before.versions n.id ≠ []) : ∃ next, e = .answered caller (.update next) (.ok n) := by
  unfold Happening.write? at wrote
  split at wrote
  · cases wrote
    obtain ⟨_, _, _, truth⟩ := h.of_split split
    exact absurd (List.getLast?_eq_none_iff.mp (truth rfl)) known
  · cases wrote
    exact ⟨_, rfl⟩
  · cases wrote

end Past

namespace Pipeline

open Conversation (Tries Quiet reads_append)

variable {d : Deployment} {allowed : Pipeline → Move → Prop} {clock : Instant} {s : Pipeline}
  {start part before after : Past} {id : Uuid} {n m : Notification} {e : Error} {call i k : Nat}
  {w : Wanted} {told : Conversation} {r : Request} {reply : r.Reply}

theorem asking_of_reachable (reached : Reachable d allowed clock s)
    (split : s.past = before ++ .answered i r reply :: after) :
    ∃ t op next c step, Reachable d allowed clock t ∧ t.past = before ∧
      t.calls[i]? = some ⟨op, .ask r next⟩ ∧ t.backend.answer c r = some step ∧
      step.reply = reply := by
  induction reached generalizing after with
  | initial => simp [initial] at split
  | @step s next m reached may moved ih =>
      have aside {more : Past} (split : s.past ++ more = before ++ .answered i r reply :: after)
          (silent : .answered i r reply ∉ more) :
          ∃ t op next c step, Reachable d allowed clock t ∧ t.past = before ∧
            t.calls[i]? = some ⟨op, .ask r next⟩ ∧ t.backend.answer c r = some step ∧
              step.reply = reply := by
        obtain ⟨rest, _, split⟩ := split_of_append split silent
        exact ih split
      cases step_of_step? moved with
      | begin permitted => exact aside split (by simp)
      | advance asks answered =>
          rcases snoc_eq_split split with ⟨_, rfl, same⟩ | ⟨rest, _, split⟩
          · cases same
            exact ⟨s, _, _, _, _, reached, rfl, asks, answered, rfl⟩
          · exact ih split
      | idle tried => exact aside split List.not_mem_nil
      | leased fresh tried => exact aside split (by simp)
      | dropped tried => exact aside split (by simp)
      | refused | setClock | setAvailable => exact ih split

theorem reset_between (reached : Reachable d allowed clock s)
    (split : s.past = start ++ part ++ after)
    (silent : Conversation.written (part.conversation call) = [])
    (first : start.latest id = some n) (wanted : w.Is n) (changed : part.versions id ≠ [])
    (second : Past.latest (start ++ part) id = some m) (again : w.Is m) :
    0 < part.resets id call := by
  have lawful := (keeping_of_reachable (contract_kept d) reached).lawful
  obtain ⟨y, stored, pending⟩ :=
    (accounted_of_reachable reached).pending_in split first wanted changed second again
  obtain ⟨e, mem, caller, wrote, rfl⟩ := Past.mem_versions.mp stored
  obtain ⟨earlier, later, rfl⟩ := List.append_of_mem mem
  have known : Past.versions (start ++ earlier) y.id ≠ [] := by
    rw [Past.versions_append]
    exact List.append_ne_nil_of_left_ne_nil
      (List.ne_nil_of_mem (Past.mem_versions_of_latest first)) _
  have place : s.past = (start ++ earlier) ++ e :: (later ++ after) := by simp [split]
  obtain ⟨next, rfl⟩ := lawful.update_of_write place wrote known
  have another : caller ≠ call := by
    rintro rfl
    have stored := Conversation.mem_written (Past.mem_conversation.mpr mem)
    rw [silent] at stored
    cases stored
  exact List.countP_pos_iff.mpr ⟨_, mem, by simp [Happening.isReset, another, pending]⟩

theorem Keeping.not_conflict {c : Contract} (keeping : s.Keeping c)
    (latest : s.past.latest m.id = some n) (same : m.version = n.version)
    (refused : s.backend.store.update m = .error e) :
    e.isConflict = false := by
  rw [← keeping.describes.found] at latest
  unfold Store.update at refused
  rw [latest] at refused
  split at refused
  · simp only [same, if_true] at refused
    cases refused
  · cases refused
    rfl

theorem changed_of_conflict (reached : Reachable d allowed clock s)
    (split : s.past = start ++ part ++ after) (first : start.latest m.id = some n)
    (same : m.version = n.version) (refused : .answered call (.update m) (.error e) ∈ part)
    (conflict : e.isConflict = true) : part.versions m.id ≠ [] := by
  obtain ⟨earlier, later, rfl⟩ := List.append_of_mem refused
  have place : s.past =
      (start ++ earlier) ++ .answered call (.update m) (.error e) :: (later ++ after) := by
    simp [split]
  obtain ⟨t, _, _, _, _, reached, past, _, answered, refused⟩ := asking_of_reachable reached place
  have keeping := keeping_of_reachable (contract_kept d) reached
  intro none
  rw [Past.versions_append] at none
  have latest : t.past.latest m.id = some n := by
    rw [past, Past.latest, Past.versions_append, (List.append_eq_nil_iff.mp none).1,
      List.append_nil]
    exact first
  have other := keeping.not_conflict latest same (Backend.refused_of_answer answered refused)
  rw [conflict] at other
  cases other

theorem split_of_found {more : Conversation} {x : (r : Request) × r.Reply}
    (said : start.conversation call ++ part.conversation call = told ++ x :: more) :
    (∃ rest, more = rest ++ part.conversation call) ∨
      ∃ earlier later : Past, part = earlier ++ .answered call x.1 x.2 :: later ∧
        start.conversation call ++ earlier.conversation call = told ∧
        later.conversation call = more := by
  rcases List.append_eq_append_iff.mp said with ⟨between, rfl, last⟩ | ⟨between, first, last⟩
  · obtain ⟨earlier, later, rfl, rfl, rfl⟩ := Past.split_of_exchange last
    exact .inr ⟨earlier, later, rfl, rfl, rfl⟩
  · cases between with
    | nil =>
        have said : part.conversation call = [] ++ x :: more := last.symm
        obtain ⟨earlier, later, rfl, silent, rfl⟩ := Past.split_of_exchange said
        exact .inr ⟨earlier, later, rfl, by simp [silent, first], rfl⟩
    | cons y rest =>
        obtain ⟨rfl, rfl⟩ := List.cons.inj last
        exact .inl ⟨rest, rfl⟩

theorem reads_eq_zero (quiet : Quiet id told) {rest more : Conversation}
    (split : told = rest ++ more) :
    more.reads id = 0 := by
  have unread := quiet.unread
  rw [split, reads_append] at unread
  omega

/-- The read of a try that was lost, in a part of the past: the record has been replaced since, and
the tries before it have been lost before it. -/
theorem lost_in_part (reached : Reachable d allowed clock s)
    (split : s.past = start ++ part ++ after) {more : Conversation}
    (refused : ⟨.update m, .error e⟩ ∈ more) (conflict : e.isConflict = true)
    (same : m.version = n.version) (own : m.id = n.id)
    (said : start.conversation call ++ part.conversation call =
      told ++ ⟨.get id, .ok (some n)⟩ :: more) :
    (∃ rest, more = rest ++ part.conversation call) ∨
      ∃ earlier later : Past, part = earlier ++ .answered call (.get id) (.ok (some n)) :: later ∧
        start.conversation call ++ earlier.conversation call = told ∧
        later.conversation call = more ∧ Past.latest (start ++ earlier) id = some n ∧
        later.versions id ≠ [] := by
  rcases split_of_found said with aside | ⟨earlier, later, rfl, before, rfl⟩
  · exact .inl aside
  · have lawful := (keeping_of_reachable (contract_kept d) reached).lawful
    have place : s.past = (start ++ earlier) ++
        .answered call (.get id) (.ok (some n)) :: (later ++ after) := by simp [split]
    have latest := lawful.latest_of_shown place .read
    rw [Past.latest_snoc_of_none rfl] at latest
    obtain rfl : n.id = id := Past.id_of_mem_versions (Past.mem_versions_of_latest latest)
    have first : Past.latest
        (start ++ earlier ++ [.answered call (.get n.id) (.ok (some n))]) m.id = some n := by
      rw [Past.latest_snoc_of_none rfl, own]
      exact latest
    have place : s.past =
        (start ++ earlier ++ [.answered call (.get n.id) (.ok (some n))]) ++ later ++
        after := by simp [split]
    have refused := Past.mem_conversation.mp refused
    have changed := changed_of_conflict reached place first same refused conflict
    exact .inr ⟨earlier, later, rfl, before, rfl, latest, own ▸ changed⟩

theorem reads_of_found (earlier later : Past) (call : Nat) (id : Uuid)
    (reply : Except Error (Option Notification)) :
    Conversation.reads id
      (Past.conversation (earlier ++ .answered call (.get id) reply :: later) call) =
      Conversation.reads id (earlier.conversation call) +
        (Conversation.reads id (later.conversation call) + 1) := by
  rw [Past.conversation_append, reads_append]
  simp [Conversation.reads, Past.conversation, Happening.exchange?, Request.isRead]

theorem resets_of_found (earlier later : Past) (call : Nat) (id : Uuid)
    (reply : Except Error (Option Notification)) :
    Past.resets (earlier ++ .answered call (.get id) reply :: later) id call =
      earlier.resets id call + later.resets id call := by
  rw [Past.resets_append]
  simp [Past.resets, Happening.isReset]

/-- Before a call finds the record again as it wants it, other calls have reset the record as often
as the call has read it, in any part of the past in which the call has stored nothing. -/
theorem reads_le_resets (reached : Reachable d allowed clock s) (tried : Tries id w k told)
    (split : s.past = start ++ part ++ after)
    (said : start.conversation call ++ part.conversation call = told)
    (silent : Conversation.written (part.conversation call) = [])
    (latest : Past.latest (start ++ part) id = some m) (again : w.Is m) :
    Conversation.reads id (part.conversation call) ≤ part.resets id call := by
  induction tried generalizing part after m with
  | none fresh still =>
      obtain ⟨rest, within⟩ := fresh.suffix said silent
      rw [reads_eq_zero still within]
      exact Nat.zero_le _
  | @lost _ _ _ n _ _ tried wanted quiet refused conflict same own ih =>
      rcases lost_in_part reached split refused conflict same own said with
        ⟨rest, within⟩ | ⟨earlier, later, rfl, before, rfl, found, changed⟩
      · rw [reads_eq_zero quiet within]
        exact Nat.zero_le _
      · let read : Happening := .answered call (.get id) (.ok (some n))
        have place : s.past = start ++ earlier ++ (read :: (later ++ after)) := by
          rw [split]
          simp [read]
        have fewer := ih place before (Past.unwritten_of_append silent) found wanted
        have place : s.past = start ++ earlier ++ [read] ++ later ++ after := by
          rw [split]
          simp [read]
        have between := reset_between reached place quiet.unwritten
          ((Past.latest_snoc_of_none rfl).trans found) wanted changed
            (by simpa [read] using latest) again
        rw [reads_of_found, resets_of_found, quiet.unread]
        omega

/-- In any part of the past in which a call has stored nothing, it has lost no more tries than other
calls have stored resets, but for one. -/
theorem reads_le_resets_succ (reached : Reachable d allowed clock s) (tried : Tries id w k told)
    (split : s.past = start ++ part ++ after)
    (said : start.conversation call ++ part.conversation call = told)
    (silent : Conversation.written (part.conversation call) = []) :
    Conversation.reads id (part.conversation call) ≤ part.resets id call + 1 := by
  cases tried with
  | none fresh still =>
      obtain ⟨rest, within⟩ := fresh.suffix said silent
      rw [reads_eq_zero still within]
      exact Nat.zero_le _
  | @lost _ _ _ n _ _ tried wanted quiet refused conflict same own =>
      rcases lost_in_part reached split refused conflict same own said with
        ⟨rest, within⟩ | ⟨earlier, later, rfl, before, rfl, found, _⟩
      · rw [reads_eq_zero quiet within]
        exact Nat.zero_le _
      · have place : s.past =
            start ++ earlier ++ (.answered call (.get id) (.ok (some n)) :: (later ++ after)) := by
          simp [split]
        have silent := Past.unwritten_of_append silent
        have fewer := reads_le_resets reached tried place before silent found wanted
        rw [reads_of_found, resets_of_found, quiet.unread]
        omega

theorem honest_of_reachable (reached : Reachable d allowed clock s) (call : Nat) :
    (s.past.conversation call).Honest := by
  have lawful := (keeping_of_reachable (contract_kept d) reached).lawful
  constructor
  · intro m n said
    obtain ⟨before, after, split⟩ := List.append_of_mem (Past.mem_conversation.mp said)
    obtain ⟨_, _, _, truth⟩ := lawful.of_split split
    obtain ⟨old, _, _, rfl⟩ := truth n rfl
    rfl
  · intro id n said
    exact Past.id_of_mem_versions (lawful.known_of_get (Past.mem_conversation.mp said))
  · intro id e said
    obtain ⟨before, after, split⟩ := List.append_of_mem (Past.mem_conversation.mp said)
    obtain ⟨_, _, _, truth⟩ := lawful.of_split split
    rcases truth with same | same
    · cases same
    · cases same
      rfl

variable {op : Operation} {rest : Prog op.Result}

theorem operation_of_reachable (reached : Reachable d allowed clock s)
    (called : s.calls[i]? = some ⟨op, rest⟩) : s.past.operations[i]? = some op := by
  rw [(keeping_of_reachable (contract_kept d) reached).operations, List.getElem?_map, called,
    Option.map_some]

/-- Whoever reads the notification again has lost all tries since it last stored a record. -/
theorem tries_of_read (reached : Reachable d allowed clock s)
    (called : s.calls[i]? = some ⟨op, rest⟩) (competes : op.Competes id)
    {reply : Except Error (Option Notification)}
    (split : s.past = before ++ .answered i (.get id) reply :: after) :
    ∃ w k, Tries id w k (before.conversation i) := by
  have asker := operation_of_reachable reached called
  obtain ⟨t, asked, next, _, _, reached, rfl, asks, _⟩ := asking_of_reachable reached split
  have later := Past.operations_mono ⟨_, split.symm⟩ (operation_of_reachable reached asks)
  obtain rfl : asked = op := Option.some.inj (later.symm.trans asker)
  obtain ⟨b, b', course⟩ := (courses_of_reachable reached).1 i _ asks
  have stages := (Operation.stages d competes).goes course
  rw [List.nil_append] at stages
  exact stages.1 (honest_of_reachable reached i) (by simp [Request.isRead])

theorem tries_of_conflict (reached : Reachable d allowed clock s) {result : op.Result}
    (ended : s.calls[i]? = some ⟨op, .done result⟩) (competes : op.Competes id)
    (conflict : op.conflicted result = true) :
    ∃ w, Tries id w Service.writeTries (s.past.conversation i) := by
  obtain ⟨b, b', course⟩ := (courses_of_reachable reached).1 i _ ended
  have stages := (Operation.stages d competes).goes course
  rw [List.nil_append] at stages
  exact stages (honest_of_reachable reached i) conflict

/-- In a part of the past in which a call has stored nothing, it has read the notification at most
twice more than other calls have reset it. -/
theorem reads_bounded (reached : Reachable d allowed clock s)
    (called : s.calls[i]? = some ⟨op, rest⟩) (competes : op.Competes id)
    (split : s.past = before ++ part ++ after)
    (silent : Conversation.written (part.conversation i) = []) :
    Conversation.reads id (part.conversation i) ≤ part.resets id i + 2 := by
  by_cases none : Conversation.reads id (part.conversation i) = 0
  · omega
  · obtain ⟨first, reply, rest, said, unread⟩ := Conversation.exists_last_read none
    obtain ⟨earlier, later, rfl, rfl, rfl⟩ := Past.split_of_exchange said
    have place : s.past = before ++ earlier ++ .answered i (.get id) reply :: (later ++ after) := by
      simp [split]
    obtain ⟨w, k, tried⟩ := tries_of_read reached called competes place
    have fewer := reads_le_resets_succ reached tried place (Past.conversation_append _ _ _).symm
      (Past.unwritten_of_append silent)
    rw [reads_of_found, resets_of_found, unread]
    omega

theorem resets_of_conflict (reached : Reachable d allowed clock s) {result : op.Result}
    (ended : s.calls[i]? = some ⟨op, .done result⟩) (competes : op.Competes id)
    (conflict : op.conflicted result = true) (split : s.past = before ++ part ++ after)
    (first : before.conversation i = []) (last : after.conversation i = []) :
    4 ≤ part.resets id i := by
  obtain ⟨w, tried⟩ := tries_of_conflict reached ended competes conflict
  obtain ⟨base, since, spoken, silent, counted⟩ := tried.since
  have said : part.conversation i = base ++ since := by
    rw [← spoken, split, Past.conversation_append, Past.conversation_append, first, last,
      List.append_nil, List.nil_append]
  obtain ⟨earlier, later, rfl, rfl, rfl⟩ := List.filterMap_eq_append_iff.mp said
  have place : s.past = (before ++ earlier) ++ later ++ after := by simp [split]
  have whole :
      Past.conversation (before ++ earlier) i ++ Past.conversation later i =
        s.past.conversation i := by
    rw [spoken, Past.conversation_append, first]
    rfl
  have fewer := reads_le_resets_succ reached tried place whole silent
  have tries : Service.writeTries = 5 := rfl
  have counted : Conversation.reads id (Past.conversation later i) = Service.writeTries := counted
  rw [Past.resets_append]
  omega

theorem failed_of_reset (reached : Reachable d allowed clock s) {caller : Nat}
    {next stored : Notification}
    (split : s.past = before ++ .answered caller (.update next) (.ok stored) :: after)
    (pending : stored.status = .pending) :
    ∃ failed, before.latest stored.id = some failed ∧ failed.status = .failed := by
  have lawful := (keeping_of_reachable (contract_kept d) reached).lawful
  obtain ⟨_, _, _, truth⟩ := lawful.of_split split
  obtain ⟨old, latest, _, made⟩ := truth stored rfl
  have own : stored.id = next.id := by
    rw [made]
    rfl
  rw [← own] at latest
  obtain ⟨k, length, place⟩ := Past.place_of_latest latest
  obtain ⟨writer, wrote⟩ := Past.getElem?_versions.mp place
  have first := Past.writesTo_mono ⟨_, split.symm⟩ wrote
  have second : (s.past.writesTo stored.id)[k + 1]? = some (caller, stored) := by
    have counted : (before.writesTo stored.id).length = k + 1 := by
      rw [← length, Past.versions, List.length_map]
    rw [Past.writesTo_of_split split rfl rfl, ← counted, List.getElem?_append_right (Nat.le_refl _),
      Nat.sub_self]
    rfl
  have rewrote := (accounted_of_reachable reached stored.id).rewrote first second
  exact ⟨old, latest, rewrote.pending_iff.mp pending⟩

/-- How often a call about a notification reads it, and what it takes for others to make it give
up. -/
structure Contended (s : Pipeline) (id : Uuid) (i : Nat) (op : Operation) (rest : Prog op.Result) :
    Prop where
  /-- In a stretch in which the call stores nothing, which each of its loops is, it reads the
  notification at most twice more than other calls have reset it there. -/
  reads_le : ∀ before part after, s.past = before ++ part ++ after →
    Conversation.written (Past.conversation part i) = [] →
      Conversation.reads id (Past.conversation part i) ≤ Past.resets part id i + 2
  /-- It returns a conflict only if others have stored four resets while it ran. -/
  conflict : ∀ result, rest = .done result → op.conflicted result = true →
    ∀ before part after, s.past = before ++ part ++ after →
      Past.conversation before i = [] → Past.conversation after i = [] → 4 ≤ Past.resets part id i
  /-- A reset is a pending version stored over one that failed. -/
  reset_of_failed : ∀ before caller next stored after,
    s.past = before ++ .answered caller (.update next) (.ok stored) :: after →
      stored.status = .pending →
        ∃ failed, Past.latest before stored.id = some failed ∧ failed.status = .failed

/-- Calls that mark a notification as queued, record an outcome or reset it give up because of other
writers only under repeated resets, however calls meet and whatever fails. -/
theorem conflicts_need_resets (reached : Reachable d allowed clock s)
    (called : s.calls[i]? = some ⟨op, rest⟩) (competes : op.Competes id) :
    s.Contended id i op rest := by
  refine ⟨fun _ _ _ => reads_bounded reached called competes, ?_, ?_⟩
  · rintro result rfl conflict before part after
    exact resets_of_conflict reached called competes conflict
  · exact fun _ _ _ _ _ => failed_of_reset reached

namespace Sample

/-- The notification is marked as queued, fails for good and is reset. Call 1 loses a try and reads
again. -/
def cycle (round : Nat) : List Move :=
  .begin (.markQueued Sample.id) :: List.replicate 3 (advance (3 * round + 2)) ++
    .begin (.record Sample.id 0 (.permanent "gone")) ::
      List.replicate 3 (advance (3 * round + 3)) ++
    .begin (.resetFailed Sample.id) :: List.replicate 3 (advance (3 * round + 4)) ++
    List.replicate 3 (advance 1)

/-- Call 1 tries to mark a new notification as queued, and others are always faster. -/
def contention : List Move :=
  .begin (.create submission) :: List.replicate 3 (advance 0) ++
    .begin (.markQueued Sample.id) :: advance 1 :: (List.range 4).flatMap cycle ++
    .begin (.markQueued Sample.id) :: List.replicate 3 (advance 14) ++ [advance 1, advance 1]

end Sample

/-- Four resets by others are enough for a call to give up, at its fifth reading. -/
theorem conflicts_need_resets_in_contention : ∃ s,
    (initial Sample.clock).run? Sample.deployment anything Sample.contention = some s ∧
      s.calls[1]? = some ⟨.markQueued Sample.id, .done (.error (.changedWhileQueued Sample.id))⟩ ∧
      Conversation.reads Sample.id (s.past.conversation 1) = 5 ∧
      5 ≤ s.past.resets Sample.id 1 + 2 ∧ 4 ≤ s.past.resets Sample.id 1 := by
  have run : ∃ s, (initial Sample.clock).run? Sample.deployment anything Sample.contention =
      some s ∧
      s.calls[1]? = some ⟨.markQueued Sample.id, .done (.error (.changedWhileQueued Sample.id))⟩ ∧
      Conversation.reads Sample.id (s.past.conversation 1) = 5 ∧
      Conversation.written (s.past.conversation 1) = [] := ⟨_, rfl, rfl, rfl, rfl⟩
  obtain ⟨s, run, ended, counted, silent⟩ := run
  have contended := conflicts_need_resets (Reachable.initial.run run) ended rfl
  have whole : s.past = [] ++ s.past ++ [] := (List.append_nil _).symm
  have twice := contended.reads_le [] s.past [] whole silent
  rw [counted] at twice
  exact ⟨s, run, ended, counted, twice,
    contended.conflict _ rfl rfl [] s.past [] whole rfl rfl⟩

end Pipeline
end Courier
