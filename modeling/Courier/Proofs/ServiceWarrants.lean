import Courier.Proofs.Warrants

namespace Courier.Service

open Prog

variable {policy : Retry.Policy} {op : Operation} {me : Nat} {past now : Past} {id : Uuid}
  {n cur failed : Notification} {time : Instant} {outcome : Outcome} {attempt : Nat}

theorem read_sound (policy : Retry.Policy) (op : Operation) (me : Nat) (id : Uuid) (past : Past) :
    Sound policy op me (Prog.get id) past fun reply now =>
      (∃ found, reply = .ok found ∧ now.Saw me id found) ∨
        reply = .error Store.unavailableError := by
  refine keeps_ask (fun _ _ => trivial) fun now reply _ truth future later => ?_
  rcases truth with rfl | rfl
  · refine .inl ⟨now.latest id, rfl, now ++ [_], now.latest id, later, ?_, ?_⟩
    · exact List.mem_append_right _ (List.mem_singleton.mpr rfl)
    · exact Past.latest_snoc_of_none rfl
  · exact .inr rfl

theorem clock_sound (policy : Retry.Policy) (op : Operation) (me : Nat) (past : Past) :
    Sound policy op me Prog.now past fun time now => .answered me .now time ∈ now ∧
      ∀ cur, cur ∈ past.versions cur.id → now.Seen cur time := by
  refine keeps_ask (fun _ _ => trivial) fun now time grown _ future later => ?_
  refine ⟨later.subset (List.mem_append_right _ (List.mem_singleton.mpr rfl)), ?_⟩
  intro cur known
  exact ⟨now, me, later, Past.versions_subset grown known⟩

structure Wrote (me : Nat) (past now : Past) (n stored : Notification) (old : Notification) :
    Prop where
  replaced : old ∈ now.versions n.id
  same : old.version = n.version
  merged : stored = Store.merged old n
  wrote : (me, stored) ∈ now.writes
  later : ∃ before : Past, past <+: before ∧ before <+: now ∧ before.latest n.id = some stored

theorem write_sound (seen : past.Seen cur time) (rewrite : past.Rewrite policy op cur time n) :
    Sound policy op me (Prog.update n) past fun reply now =>
      ∀ stored, reply = .ok stored → ∃ old, Wrote me past now n stored old := by
  refine keeps_ask (fun now grown => ⟨cur, time, seen.mono grown, rewrite.mono grown⟩)
    fun now reply grown truth future later stored same => ?_
  subst same
  obtain ⟨old, latest, version, merged⟩ := truth stored rfl
  have before : past <+: now ++ [.answered me (.update n) (.ok stored)] :=
    grown.trans (List.prefix_append _ _)
  refine ⟨old, ?_, version, merged, ?_, now ++ [_], before, later, ?_⟩
  · exact Past.versions_subset ((List.prefix_append _ _).trans later)
      (Past.mem_versions_of_latest latest)
  · refine (later.filterMap _).subset ?_
    simp [Happening.write?]
  · have own : stored.id = n.id := by rw [merged]; rfl
    rw [← own]
    exact Past.latest_snoc_self rfl

theorem push_sound (policy : Retry.Policy) (op : Operation) (me : Nat) (job : Job) (past : Past) :
    Sound policy op me (Prog.enqueue job) past fun reply now =>
      reply = .ok () → now.Asked job.key := by
  refine keeps_ask (fun _ _ => trivial) fun now reply _ _ future later same => ?_
  subst same
  refine Past.Asked.mono ?_ later
  exact ⟨_, List.mem_append_right _ (List.mem_singleton.mpr rfl), job, rfl, rfl⟩

theorem get_sound (policy : Retry.Policy) (op : Operation) (me : Nat) (id : Uuid) (past : Past) :
    Sound policy op me (get id) past fun result now =>
      (∀ n, result = .ok n → now.Saw me id (some n)) ∧
        ∀ text attempt, result = .error (.notFound text) → now.Discharged me id attempt := by
  refine Keeps.bind (read_sound policy op me id past) fun reply now _ answer => ?_
  rcases answer with ⟨found, rfl, saw⟩ | rfl
  · cases found with
    | none =>
        refine keeps_pure fun future later => ⟨fun n same => (nomatch same), fun _ _ _ => ?_⟩
        exact ⟨none, saw.mono later, fun n same => (nomatch same)⟩
    | some n =>
        refine keeps_pure fun future later => ⟨fun m same => ?_, fun _ _ same => (nomatch same)⟩
        cases same
        exact saw.mono later
  · exact keeps_pure fun future later =>
      ⟨fun n same => (nomatch same), fun _ _ same => (nomatch same)⟩

theorem Wrote.saw {stored old : Notification} {found : Option Notification}
    (h : Wrote me past now n stored old) (saw : past.Saw me n.id found) :
    now.Saw me n.id (some stored) := by
  obtain ⟨before, grown, earlier, latest⟩ := h.later
  exact (saw.later grown latest).mono earlier

theorem markQueuedIn_sound (able : op.onlyReports = false)
    (backed : op.pushesFirst = true → past.Backed id) (tries : Nat) :
    Sound policy op me (markQueuedIn tries id) past fun result now =>
      ∀ n, result = .ok n → now.Saw me id (some n) := by
  induction tries generalizing past with
  | zero => exact keeps_pure fun _ _ _ same => (nomatch same)
  | succ tries ih =>
      refine Keeps.bind (get_sound policy op me id past) fun result now grown ⟨saw, _⟩ => ?_
      cases result with
      | error e => exact keeps_pure fun _ _ _ same => (nomatch same)
      | ok current =>
          have saw := saw current rfl
          obtain rfl := Past.id_of_mem_versions saw.known
          show Sound policy op me (if current.status = .pending then _ else _) now _
          split
          · rename_i pending
            refine Keeps.bind (clock_sound policy op me now) fun time now' later ⟨_, seen⟩ => ?_
            have backed : op.pushesFirst = true → now'.Backed current.id :=
              fun pushes => (backed pushes).mono (grown.trans later)
            refine Keeps.bind (write_sound (seen current saw.known) (.queue able pending backed))
              fun reply now'' latest wrote => ?_
            cases reply with
            | ok stored =>
                obtain ⟨old, wrote⟩ := wrote stored rfl
                refine keeps_note (keeps_pure fun future last n same => ?_)
                cases same
                exact (wrote.saw (saw.mono later)).mono last
            | error e =>
                show Sound policy op me (if e.isConflict = true then _ else _) now'' _
                split
                · exact ih fun pushes => (backed pushes).mono latest
                · exact keeps_pure fun _ _ _ same => (nomatch same)
          · refine keeps_pure fun future later n same => ?_
            cases same
            exact saw.mono later

/-- A notification is pushed as it is stored, so that it is not marked as queued without a job. -/
theorem enqueue_sound (able : op.onlyReports = false)
    (known : op.pushesFirst = true → n ∈ past.versions n.id) :
    Sound policy op me (enqueue n) past fun _ _ => True := by
  unfold enqueue
  split
  · exact keeps_note (keeps_pure fun _ _ => trivial)
  · exact keeps_pure fun _ _ => trivial
  · exact keeps_pure fun _ _ => trivial
  · rename_i pending
    refine Keeps.bind (clock_sound policy op me past) fun time now grown _ => ?_
    refine Keeps.bind (push_sound policy op me _ now) fun reply now' later asked => ?_
    cases reply with
    | error e => exact keeps_note (keeps_pure fun _ _ => trivial)
    | ok _ =>
        have backed : op.pushesFirst = true → now'.Backed n.id := by
          intro pushes
          have known := Past.versions_subset (grown.trans later) (known pushes)
          exact ⟨n, known, pending, .inl (asked rfl)⟩
        exact (markQueuedIn_sound able backed writeTries).mono fun _ _ _ _ => trivial

theorem insert_sound (able : op.onlyReports = false) (submitted : past.Submitted n) :
    Sound policy op me (Prog.insert n) past fun reply now =>
      reply = .ok () → n ∈ now.versions n.id := by
  refine keeps_ask (fun now grown => ⟨able, submitted.mono grown⟩)
    fun now reply _ _ future later same => ?_
  subst same
  refine Past.versions_subset later ?_
  rw [Past.versions_snoc_self rfl]
  exact List.mem_append_right _ (List.mem_singleton.mpr rfl)

theorem create_sound (able : op.onlyReports = false) (s : Submission) :
    Sound policy op me (create s) past fun _ _ => True := by
  unfold create
  simp only []
  split
  · exact keeps_pure fun _ _ => trivial
  · rename_i recipient
    split
    · exact keeps_pure fun _ _ => trivial
    · rename_i payload
      refine Keeps.bind (clock_sound policy op me past) fun time now grown ⟨read, _⟩ => ?_
      have fresh : Sound policy op me freshId now fun _ _ => True :=
        keeps_ask (fun _ _ => trivial) fun _ _ _ _ _ _ => trivial
      refine Keeps.bind fresh fun id now' later _ => ?_
      have submitted : now'.Submitted
          (Notification.create id { s with recipient := Text.trimmed s.recipient } time) :=
        .create recipient payload (later.subset read)
      refine Keeps.bind (insert_sound able submitted) fun reply now'' latest stored => ?_
      cases reply with
      | error e => exact keeps_pure fun _ _ => trivial
      | ok _ => exact keeps_note (enqueue_sound able fun _ => stored rfl)

theorem drawn_sound {α : Type} {bound : Nat} {f : Nat → Prog α} {post : α → Past → Prop}
    (h : ∀ extra (now : Past), past <+: now → Sound policy op me (f extra) now post) :
    Sound policy op me (if bound = 0 then pure 0 >>= f else draw bound >>= f) past post := by
  split
  · exact h 0 past (List.prefix_refl _)
  · have drawn : Sound policy op me (draw bound) past fun _ _ => True :=
      keeps_ask (fun _ _ => trivial) fun _ _ _ _ _ _ => trivial
    exact Keeps.bind drawn fun extra now grown _ => h extra now grown

/-- The outcome is applied as it should be, and a record that stays queued has a job for its next
attempt. -/
theorem applied_sound (policy : Retry.Policy) (op : Operation) (me : Nat) (cur : Notification)
    (outcome : Outcome) (time : Instant) (past : Past) :
    Sound policy op me (applied policy cur outcome time) past fun result now =>
      ∀ next wrap, result = .ok (next, wrap) → Reported policy cur time outcome next wrap ∧
        (next.status = .queued → now.Asked (cur.id, next.attemptCount)) := by
  unfold applied
  cases outcome with
  | success =>
      refine keeps_pure fun _ _ next wrap same => ?_
      cases same
      exact ⟨.sent, fun again => (nomatch again)⟩
  | permanent message =>
      refine keeps_pure fun _ _ next wrap same => ?_
      cases same
      exact ⟨.refused, fun again => (nomatch again)⟩
  | transient message =>
      refine drawn_sound fun extra now grown => ?_
      refine keeps_orAbort fun decision decided => ?_
      cases decision with
      | giveUp =>
          refine keeps_pure fun _ _ next wrap same => ?_
          cases same
          exact ⟨.exhausted (Retry.Policy.decide?_eq_giveUp.mp decided),
            fun again => (nomatch again)⟩
      | retryAt delay retryAt =>
          refine Keeps.bind (push_sound policy op me _ now) fun reply now' later asked => ?_
          cases reply with
          | error e => exact keeps_pure fun _ _ _ _ same => (nomatch same)
          | ok _ =>
              refine keeps_note (keeps_pure fun future last next wrap same => ?_)
              cases same
              have left := Retry.Policy.left_of_decided decided
              exact ⟨.retried left decided, fun _ => (asked rfl).mono last⟩

theorem Reported.moves {next : Notification} {wrap : Notification → Recorded}
    (h : Reported policy cur time outcome next wrap) :
    ¬(next.status = .queued ∧ next.attemptCount = cur.attemptCount) := by
  cases h with
  | sent => exact fun ⟨queued, _⟩ => nomatch queued
  | refused => exact fun ⟨queued, _⟩ => nomatch queued
  | exhausted spent => exact fun ⟨queued, _⟩ => nomatch queued
  | retried left decided =>
      rintro ⟨_, same⟩
      have more := attemptsAfter_of_left left
      simp only [tried] at same
      omega

theorem Wrote.applied {next old : Notification} {wrap : Notification → Recorded}
    (h : Wrote me past now next (Store.merged old next) old) (seen : now.Seen cur time)
    (queued : cur.status = .queued) (reported : Reported policy cur time outcome next wrap) :
    now.Applied policy me cur.id cur.attemptCount outcome (wrap (Store.merged old next)) := by
  have replaced : old ∈ now.versions cur.id := by
    rw [← reported.id_eq]
    exact h.replaced
  exact .intro seen rfl queued rfl reported replaced (h.same.trans reported.version_eq) h.wrote

/-- A report that comes to an end without an error finds the attempt over, and has applied its
outcome unless it was stale. -/
theorem recordIn_sound (reports : op.Reports id attempt outcome) (tries : Nat) :
    Sound policy op me (recordIn policy id attempt outcome tries) past fun result now =>
      ∀ r, result = .ok r → now.Discharged me id attempt ∧
        (r.isStale = false → now.Applied policy me id attempt outcome r) := by
  induction tries generalizing past with
  | zero => exact keeps_pure fun _ _ _ same => (nomatch same)
  | succ tries ih =>
      refine Keeps.bind (get_sound policy op me id past) fun result now grown ⟨saw, _⟩ => ?_
      cases result with
      | error e => exact keeps_pure fun _ _ _ same => (nomatch same)
      | ok current =>
          have saw := saw current rfl
          obtain rfl := Past.id_of_mem_versions saw.known
          show Sound policy op me
            (if current.status = .queued ∧ current.attemptCount = attempt then _ else _) now _
          split
          · rename_i waiting
            obtain ⟨queued, rfl⟩ := waiting
            refine Keeps.bind (clock_sound policy op me now) fun time now' later ⟨_, seen⟩ => ?_
            have seen := seen current saw.known
            show Sound policy op me (if _ then abort else _) now' _
            split
            · trivial
            · refine Keeps.bind (applied_sound policy op me current outcome time now')
                fun result now₁ later₁ made => ?_
              match result with
              | .error e => exact keeps_pure fun _ _ _ same => (nomatch same)
              | .ok (next, wrap) =>
                  obtain ⟨reported, job⟩ := made next wrap rfl
                  refine Keeps.bind (write_sound (seen.mono later₁)
                    (.report reports queued reported job)) fun reply now₂ later₂ wrote => ?_
                  cases reply with
                  | ok stored =>
                      obtain ⟨old, wrote⟩ := wrote stored rfl
                      refine keeps_noteAll (keeps_pure fun future last r same => ?_)
                      cases same
                      have saw : now₂.Saw me current.id (some stored) := by
                        rw [← reported.id_eq] at saw ⊢
                        exact wrote.saw ((saw.mono later).mono later₁)
                      obtain rfl := wrote.merged
                      refine ⟨(saw.mono last).discharged reported.moves, fun _ => ?_⟩
                      exact (wrote.applied (seen.mono later₁ |>.mono later₂) queued
                        reported).mono last
                  | error e =>
                      show Sound policy op me (if e.isConflict = true then _ else _) now₂ _
                      split
                      · exact ih
                      · exact keeps_pure fun _ _ _ same => (nomatch same)
          · rename_i settled
            refine keeps_note (keeps_pure fun future later r same => ?_)
            cases same
            exact ⟨(saw.mono later).discharged settled, fun fresh => nomatch fresh⟩

/-- A reset returns the failed record that was read, and the pending one that replaced it. -/
structure Reset (now : Past) (id : Uuid) (failed pending : Notification) : Prop where
  wasFailed : failed.status = .failed
  known : failed ∈ now.versions id
  stored : pending ∈ now.versions id
  reset : ∃ old ∈ now.versions id, ∃ time, old.version = failed.version ∧
    pending = Store.merged old (failed.resetAt time)

theorem Reset.mono {pending : Notification} (h : Reset past id failed pending)
    (grown : past <+: now) : Reset now id failed pending := by
  obtain ⟨old, replaced, time, same, rfl⟩ := h.reset
  have kept : past.versions id ⊆ now.versions id := Past.versions_subset grown
  exact ⟨h.wasFailed, kept h.known, kept h.stored, old, kept replaced, time, same, rfl⟩

theorem resetIn_sound (able : op.onlyReports = false) (tries : Nat) :
    Sound policy op me (resetIn tries id) past fun result now =>
      ∀ failed pending, result = .ok (failed, pending) → Reset now id failed pending := by
  induction tries generalizing past with
  | zero => exact keeps_pure fun _ _ _ _ same => (nomatch same)
  | succ tries ih =>
      refine Keeps.bind (get_sound policy op me id past) fun result now grown ⟨saw, _⟩ => ?_
      cases result with
      | error e => exact keeps_pure fun _ _ _ _ same => (nomatch same)
      | ok current =>
          have known := (saw current rfl).known
          obtain rfl := Past.id_of_mem_versions known
          show Sound policy op me (if current.status = .failed then _ else _) now _
          split
          · rename_i wasFailed
            refine Keeps.bind (clock_sound policy op me now) fun time now' later ⟨_, seen⟩ => ?_
            refine Keeps.bind (write_sound (seen current known) (.reset able wasFailed))
              fun reply now'' latest wrote => ?_
            cases reply with
            | ok stored =>
                obtain ⟨old, wrote⟩ := wrote stored rfl
                refine keeps_pure fun future last failed pending same => ?_
                cases same
                obtain ⟨before, _, earlier, newest⟩ := wrote.later
                refine ⟨wasFailed, ?_, ?_, old, ?_, time, wrote.same, wrote.merged⟩
                · exact Past.versions_subset (later.trans (latest.trans last)) known
                · exact Past.versions_subset (earlier.trans last)
                    (Past.mem_versions_of_latest newest)
                · exact Past.versions_subset last wrote.replaced
            | error e =>
                show Sound policy op me (if e.isConflict = true then _ else _) now'' _
                split
                · exact ih
                · exact keeps_pure fun _ _ _ _ same => (nomatch same)
          · exact keeps_pure fun _ _ _ _ same => (nomatch same)

theorem resetFailed_sound (able : op.onlyReports = false) (id : Uuid) (past : Past) :
    Sound policy op me (resetFailed id) past fun _ _ => True := by
  refine Keeps.bind (resetIn_sound able writeTries) fun result now grown reset => ?_
  match result with
  | .error e => exact keeps_pure fun _ _ => trivial
  | .ok (failed, pending) =>
      have reset := reset failed pending rfl
      have stored := reset.stored
      obtain rfl := Past.id_of_mem_versions stored
      refine Keeps.bind (enqueue_sound able fun _ => stored) fun result now' later _ => ?_
      cases result with
      | ok queued => exact keeps_pure fun _ _ => trivial
      | error e =>
          show Sound policy op me (if e.isQueueUnavailable = true then _ else _) now' _
          split
          · refine Keeps.bind (clock_sound policy op me now') fun time now'' last ⟨_, seen⟩ => ?_
            have reset := reset.mono (later.trans last)
            obtain ⟨old, replaced, before, same, made⟩ := reset.reset
            have seen := seen pending (Past.versions_subset later stored)
            refine Keeps.bind (write_sound seen
              (.restore able reset.known reset.wasFailed replaced same made)) fun reply _ _ _ => ?_
            cases reply with
            | ok _ => exact keeps_pure fun _ _ => trivial
            | error lost => exact keeps_note (keeps_pure fun _ _ => trivial)
          · exact keeps_pure fun _ _ => trivial

end Courier.Service
