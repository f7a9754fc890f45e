import Courier.Proofs.Handling

namespace Courier

open Prog

/-- A job that was handled: what the provider said to the message, when the outcome was reported,
and how the handling went. -/
structure Round where
  said : Except EmitError Unit
  reportedAt : Instant
  conversation : Conversation
  outcome : Worker.JobOutcome

namespace Round

def attempted (limit : Duration) (round : Round) : Attempted :=
  (Worker.outcomeOf limit (some round.said), round.reportedAt)

end Round

/-- A call about that notification, with a provider that answers in time. -/
abbrev Surroundings.answered (id : Uuid) (said : Except EmitError Unit) : Surroundings :=
  .apart id fun c => c.delivery = some said

/-- A submission was accepted and queued as `n`, under an identifier that was new, and after so many
rounds the backends are as they are. Only one worker has to do with the notification at a time,
under a lease that nobody takes away. -/
inductive Delivered (d : Deployment) (s : Submission) (id : Uuid) (n : Notification) :
    List Round → Backend → Prop
  | created {b b' : Backend} {conv : Conversation} (fresh : b.Shows id none [] [])
      (course : (Service.create s).Goes (.apart id fun c => c.id = id) b conv (.done (.ok n)) b') :
      Delivered d s id n [] b'
  | meanwhile {rounds : List Round} {b b' : Backend} (earlier : Delivered d s id n rounds b)
      (others : b.Elsewhere id b') : Delivered d s id n rounds b'
  | handled {rounds : List Round} {round : Round} {b b' : Backend}
      {leaseFor : Duration} {token : Uuid}
      {lease : Lease} {queue : Queue} (earlier : Delivered d s id n rounds b)
      (leased : b.queue.tryLease b.clock leaseFor token = (.leased lease, queue))
      (own : lease.job.notificationId = id)
      (course : (Worker.process d.policy d.emitters d.sendLimit lease).Goes
        (.answered id round.said) { b with queue } round.conversation (.done round.outcome) b')
      (reported : ⟨.now, round.reportedAt⟩ ∈ round.conversation) :
      Delivered d s id n (rounds ++ [round]) b'

section

variable {d : Deployment} {s : Submission} {id : Uuid} {n : Notification} {rounds : List Round}
  {b : Backend}

/-- Where the delivery of a notification stands after those rounds. -/
def Deployment.fate (d : Deployment) (rounds : List Round) : Fate :=
  .ofReports d.policy.maxAttempts (rounds.map (Round.attempted d.sendLimit))

/-- The record of a notification that was queued as `n`, after those rounds. -/
def Deployment.record (d : Deployment) (n : Notification) (rounds : List Round) : Notification :=
  (d.fate rounds).record d.policy n rounds.length

/-- The round has handed one message to the provider, and was answered what the fold says. -/
structure Round.Follows (d : Deployment) (n : Notification) (earlier : List Round) (round : Round) :
    Prop where
  sends : ∃ message, Message.render n.channel n.payload = .ok message ∧
    round.conversation.sends = [⟨.send n.channel n.recipient message d.sendLimit, some round.said⟩]
  outcome : round.outcome =
    .recorded ((d.fate (earlier ++ [round])).answer (d.record n (earlier ++ [round])))

theorem fate_snoc (rounds : List Round) (round : Round) :
    d.fate (rounds ++ [round]) =
      (d.fate rounds).after d.policy.maxAttempts (round.attempted d.sendLimit) := by
  simp [Deployment.fate, Fate.ofReports]

/-- What is known of a notification that was delivered so far. -/
structure Stands (d : Deployment) (s : Submission) (n : Notification) (rounds : List Round)
    (b : Backend) : Prop where
  accepted : s.Accepted n.id n
  rendered : ∃ message, Message.render n.channel n.payload = .ok message
  shows : ∃ jobs, b.Shows n.id (some (d.record n rounds)) jobs [] ∧
    (d.fate rounds).Leaves (d.record n rounds) jobs
  rounds : ∀ earlier round later, rounds = earlier ++ round :: later → round.Follows d n earlier

theorem Fate.record_id (fate : Fate) (policy : Retry.Policy) (n : Notification) (count : Nat) :
    (fate.record policy n count).id = n.id := by
  cases fate <;> rfl

theorem Submission.Accepted.record_eq (h : s.Accepted id n) (d : Deployment) :
    d.record n [] = n := by
  obtain ⟨created, queued, rfl⟩ := h
  rfl

theorem Submission.Accepted.own (h : s.Accepted id n) :
    n.id = id ∧ n.status = .queued ∧ n.channel = s.channel ∧ n.payload = s.payload := by
  obtain ⟨created, queued, rfl⟩ := h
  exact ⟨rfl, rfl, rfl, rfl⟩

theorem stands_of_created {conv : Conversation} {b' : Backend} (fresh : b.Shows id none [] [])
    (course : (Service.create s).Goes (.apart id fun c => c.id = id) b conv (.done (.ok n)) b') :
    n.id = id ∧ Stands d s n [] b' := by
  obtain ⟨valid, accepted, time, shows⟩ := (Service.create_amid fresh).goes course n rfl
  obtain ⟨rfl, _, channel, payload⟩ := accepted.own
  refine ⟨rfl, accepted, ?_, ?_, ?_⟩
  · rw [channel, payload]
    exact Message.render_of_valid valid
  · rw [accepted.record_eq]
    refine ⟨_, shows, _, rfl, rfl, ?_⟩
    obtain ⟨created, queued, made⟩ := accepted
    rw [made]
    rfl
  · intro earlier round later split
    cases earlier <;> cases split

theorem Stands.later {b' : Backend} (h : Stands d s n rounds b) (others : b.Elsewhere n.id b') :
    Stands d s n rounds b' := by
  obtain ⟨jobs, shows, leaves⟩ := h.shows
  exact ⟨h.accepted, h.rendered, ⟨jobs, shows.later others, leaves⟩, h.rounds⟩

variable {leaseFor : Duration} {token : Uuid} {lease : Lease} {queue : Queue} {provider : String}
  {round : Round}

theorem Stands.leased (h : Stands d s n rounds b)
    (leased : b.queue.tryLease b.clock leaseFor token = (.leased lease, queue))
    (own : lease.job.notificationId = n.id) :
    ∃ failures last, d.fate rounds = .waiting failures last ∧ lease.job.key = (n.id, failures) ∧
      Backend.Shows { b with queue } n.id (some (d.record n rounds)) []
        [(lease.token, lease.job)] := by
  obtain ⟨jobs, shows, leaves⟩ := h.shows
  have live : lease.job ∈ b.queue.liveJobs.filter fun job => job.notificationId == n.id :=
    List.mem_filter.mpr ⟨(Queue.visible_of_tryLease leased).1, beq_iff_eq.mpr own⟩
  rw [Queue.liveJobs_filter_own, shows.waits, shows.leased] at live
  cases fate : d.fate rounds with
  | waiting failures last =>
      rw [fate] at leaves
      obtain ⟨job, rfl, key, _⟩ := leaves
      obtain ⟨same, named, up, waits, held⟩ :=
        Queue.tryLease_own leased own shows.waits shows.leased
      refine ⟨failures, last, rfl, ?_, shows.store, up.trans shows.queue, shows.record, waits, ?_⟩
      · rw [same, key, Deployment.record, Fate.record_id]
      · rw [held, same, named]
  | sent attempts time =>
      rw [fate] at leaves
      obtain rfl : jobs = [] := leaves
      cases live
  | failed message time =>
      rw [fate] at leaves
      obtain rfl : jobs = [] := leaves
      cases live

section Handling

variable (plain : d.policy.jitter = false) (positive : 1 ≤ d.policy.maxAttempts)
  (counted : d.policy.maxAttempts < Notification.attemptLimit)
  (emitter : d.emitters.lookup s.channel = some provider) (h : Stands d s n rounds b)
  (leased : b.queue.tryLease b.clock leaseFor token = (.leased lease, queue))
  (own : lease.job.notificationId = n.id)

include plain positive counted emitter h leased own

/-- Whatever the provider says, the handling of a job that went out comes to what it should. -/
theorem Stands.handling (said : Except EmitError Unit) :
    ∃ failures last message, d.fate rounds = .waiting failures last ∧
      failures < d.policy.maxAttempts ∧
      Message.render n.channel n.payload = .ok message ∧
      (Worker.process d.policy d.emitters d.sendLimit lease).Meets (.answered n.id said)
        (fun _ => True) (Worker.Handled d.policy d.sendLimit (d.record n rounds) message said)
        { b with queue } := by
  obtain ⟨failures, last, fate, key, shows⟩ := h.leased leased own
  obtain ⟨message, rendered⟩ := h.rendered
  obtain ⟨_, queued, channel, _⟩ := h.accepted.own
  have left := Fate.left_of_ofReports positive fate
  have cur : d.record n rounds = (Fate.waiting failures last).record d.policy n rounds.length := by
    rw [Deployment.record, fate]
  refine ⟨failures, last, message, fate, left, rendered, ?_⟩
  rw [cur] at shows ⊢
  let cur := (Fate.waiting failures last).record d.policy n rounds.length
  have queued : cur.status = .queued := queued
  have counted : cur.attemptCount + 1 < Notification.attemptLimit := Nat.lt_of_le_of_lt left counted
  have emitter : d.emitters.lookup cur.channel = some provider := by
    rw [← emitter, ← channel]
    rfl
  exact Worker.process_amid plain queued key counted emitter rendered shows

theorem Stands.handled {b' : Backend}
    (course : (Worker.process d.policy d.emitters d.sendLimit lease).Goes
      (.answered n.id round.said) { b with queue } round.conversation (.done round.outcome) b')
    (reported : ⟨.now, round.reportedAt⟩ ∈ round.conversation) :
    Stands d s n (rounds ++ [round]) b' := by
  obtain ⟨failures, last, message, fate, left, rendered, handling⟩ :=
    h.handling plain positive counted emitter leased own round.said
  have handled : Worker.Handled d.policy d.sendLimit (d.record n rounds) message round.said
      (some round.outcome) (round.conversation ++ []) b' := handling.goes course
  rw [List.append_nil] at handled
  obtain ⟨time, ruling, ruled, times, sends, shows, outcome⟩ := handled.ruled
  obtain rfl : round.reportedAt = time := by
    have read := Conversation.mem_times reported
    rw [times] at read
    exact List.mem_singleton.mp read
  have cur : d.record n rounds = (Fate.waiting failures last).record d.policy n rounds.length := by
    rw [Deployment.record, fate]
  have next : d.fate (rounds ++ [round]) =
      (Fate.waiting failures last).after d.policy.maxAttempts
        (Worker.outcomeOf d.sendLimit (some round.said), round.reportedAt) := by
    rw [fate_snoc, fate]
    rfl
  have record : d.record n (rounds ++ [round]) =
      (d.fate (rounds ++ [round])).record d.policy n (rounds.length + 1) := by
    rw [Deployment.record, List.length_append, List.length_singleton]
  rw [cur] at ruled sends shows outcome
  obtain ⟨stored, answer, leaves⟩ := Fate.after_of_ruling left last ruled
  rw [answer, stored, ← next, ← record] at outcome
  rw [stored, ← next, ← record] at shows leaves
  refine ⟨h.accepted, h.rendered, ⟨_, shows, leaves⟩, ?_⟩
  intro earlier current later split
  rcases snoc_eq_split split with ⟨_, rfl, rfl⟩ | ⟨before, _, old⟩
  · exact ⟨⟨message, rendered, sends⟩, outcome⟩
  · exact h.rounds earlier current before old

/-- The handling of a job that went out can always be brought to its end, and breaks off only if the
next attempt would lie beyond all dates. -/
theorem Stands.ends (said : Except EmitError Unit) {conv : Conversation}
    {rest : Prog Worker.JobOutcome} {b' : Backend}
    (course : (Worker.process d.policy d.emitters d.sendLimit lease).Goes (.answered n.id said)
      { b with queue } conv rest b') :
    ∃ more final b'', rest.Goes (.answered n.id said) b' more final b'' ∧
      ((∃ r, final = .done (.recorded r)) ∨ (final = .abort ∧ ∃ time failures last,
        d.fate rounds = .waiting failures last ∧ Conversation.times (conv ++ more) = [time] ∧
        time.add? (d.policy.baseDelayFor (failures + 1)) = none)) := by
  obtain ⟨failures, last, message, fate, left, rendered, handling⟩ :=
    h.handling plain positive counted emitter leased own said
  have served (b : Backend) (r : Request) (kind : r.isInward = true ∨ r.isSend = true) :
      ∃ c step, c.delivery = some said ∧ b.answer c r = some step := by
    obtain ⟨step, answered⟩ := b.answers_handling ⟨n.id, 0, some said⟩ kind
    exact ⟨_, step, rfl, answered⟩
  have only := (Worker.process_only lease).goes course
  obtain ⟨more, final, b'', onward, ended⟩ :=
    only.ends (fun _ => Relation.ReflTransGen.refl) served (handling.goes course)
  refine ⟨more, final, b'', onward, ?_⟩
  rcases ended with ⟨outcome, rfl, handled⟩ | ⟨rfl, handled⟩
  · cases handled with
    | recorded => exact .inl ⟨_, rfl⟩
  · cases handled with
    | broken unruled times =>
        refine .inr ⟨rfl, _, failures, last, fate, times, ?_⟩
        have due := Service.due_of_no_ruling unruled
        rw [Deployment.record, fate] at due
        have count : min (failures + 1) d.policy.maxAttempts = failures + 1 := Nat.min_eq_left left
        rw [← count]
        exact due

end Handling

theorem Delivered.stands (plain : d.policy.jitter = false) (positive : 1 ≤ d.policy.maxAttempts)
    (counted : d.policy.maxAttempts < Notification.attemptLimit)
    (emitter : d.emitters.lookup s.channel = some provider) (h : Delivered d s id n rounds b) :
    n.id = id ∧ Stands d s n rounds b := by
  induction h with
  | created fresh course => exact stands_of_created fresh course
  | meanwhile _ others ih =>
      obtain ⟨rfl, stands⟩ := ih
      exact ⟨rfl, stands.later others⟩
  | handled _ leased own course reported ih =>
      obtain ⟨rfl, stands⟩ := ih
      exact ⟨rfl, stands.handled plain positive counted emitter leased own course reported⟩

/-- After every job that was handled the record is the fold of the outcomes so far, and there is a
job for the next attempt, if there is to be one, and no other. Each job has cost one message to the
provider. The handling of the next job, whatever the provider says to it, can always be brought to
its end, and breaks off only if the attempt after it would lie beyond all dates. -/
theorem delivered_as_folded (plain : d.policy.jitter = false) (positive : 1 ≤ d.policy.maxAttempts)
    (counted : d.policy.maxAttempts < Notification.attemptLimit)
    (emitter : d.emitters.lookup s.channel = some provider) (h : Delivered d s id n rounds b) :
    s.Accepted id n ∧ b.store.find? id = some (d.record n rounds) ∧
      (d.fate rounds).Leaves (d.record n rounds)
        (b.queue.liveJobs.filter fun job => job.notificationId == id) ∧
      (∀ earlier round later, rounds = earlier ++ round :: later → round.Follows d n earlier) ∧
      ∀ (leaseFor : Duration) (token : Uuid) (lease : Lease) (queue : Queue)
        (said : Except EmitError Unit) (conv : Conversation) (rest : Prog Worker.JobOutcome)
        (b' : Backend),
        b.queue.tryLease b.clock leaseFor token = (.leased lease, queue) →
        lease.job.notificationId = id →
        (Worker.process d.policy d.emitters d.sendLimit lease).Goes (.answered id said)
          { b with queue } conv rest b' →
        ∃ more final b'', rest.Goes (.answered id said) b' more final b'' ∧
          ((∃ r, final = .done (.recorded r)) ∨ (final = .abort ∧ ∃ time failures last,
            d.fate rounds = .waiting failures last ∧ Conversation.times (conv ++ more) = [time] ∧
            time.add? (d.policy.baseDelayFor (failures + 1)) = none)) := by
  obtain ⟨rfl, stands⟩ := h.stands plain positive counted emitter
  obtain ⟨jobs, shows, leaves⟩ := stands.shows
  refine ⟨stands.accepted, shows.record, ?_, stands.rounds, ?_⟩
  · rw [Queue.liveJobs_filter_own, shows.waits, shows.leased, List.map_nil, List.append_nil]
    exact leaves
  · intro leaseFor token lease queue said conv rest b' leased own course
    exact stands.ends plain positive counted emitter leased own said course

theorem Delivered.follow_create {cs : List Choice} (fresh : b.Shows id none [] [])
    (given : ∀ c ∈ cs, c.id = id)
    (ended : ((Service.create s).follow cs b).2.1 = .done (.ok n)) :
    Delivered d s id n [] ((Service.create s).follow cs b).2.2 := by
  have course := goes_follow (w := .apart id fun c => c.id = id) (fun _ =>
      Relation.ReflTransGen.refl)
    (fun c mem _ _ => given c mem) (Service.create s) b
  rw [ended] at course
  exact .created fresh course

def Deployment.handle (d : Deployment) (leaseFor : Duration) (lease : Lease) (cs : List Choice)
    (b : Backend) : Conversation × Prog Worker.JobOutcome × Backend :=
  (Worker.process d.policy d.emitters d.sendLimit lease).follow cs
    { b with queue := (b.queue.tryLease b.clock leaseFor lease.token).2 }

theorem Delivered.handle {cs : List Choice} {said : Except EmitError Unit} {time : Instant}
    {outcome : Worker.JobOutcome} (earlier : Delivered d s id n rounds b)
    (leased : (b.queue.tryLease b.clock leaseFor lease.token).1 = .leased lease)
    (own : lease.job.notificationId = id) (given : ∀ c ∈ cs, c.delivery = some said)
    (ended : (d.handle leaseFor lease cs b).2.1 = .done outcome)
    (reported : ⟨.now, time⟩ ∈ (d.handle leaseFor lease cs b).1) :
    Delivered d s id n (rounds ++ [⟨said, time, (d.handle leaseFor lease cs b).1, outcome⟩])
      (d.handle leaseFor lease cs b).2.2 := by
  have course := goes_follow (w := .answered id said) (fun _ => Relation.ReflTransGen.refl)
    (fun c mem _ _ => given c mem) (Worker.process d.policy d.emitters d.sendLimit lease)
    { b with queue := (b.queue.tryLease b.clock leaseFor lease.token).2 }
  change Goes _ _ _ _ (d.handle leaseFor lease cs b).2.1 _ at course
  rw [ended] at course
  exact .handled earlier (Prod.ext leased rfl) own course reported

end

namespace Pipeline.Sample

def firstLease : Lease := ⟨⟨id, 0, clock, clock⟩, ⟨10#128⟩, .ofSecond 60⟩

def due : Backend :=
  { (patient.handle (.ofSeconds 60) firstLease (List.replicate 8 failure) created).2.2 with
    clock := .ofSecond 60 }

def secondLease : Lease := ⟨⟨id, 1, clock, .ofSecond 60⟩, ⟨11#128⟩, .ofSecond 120⟩

end Pipeline.Sample

open Pipeline.Sample in
/-- A first attempt fails; a minute later the second one succeeds. -/
theorem delivered_after_failure : ∃ n first second b,
    Delivered patient submission Pipeline.Sample.id n [first, second] b ∧
      first.said = .error (.network "down") ∧ second.said = .ok () ∧
      patient.fate [first, second] = .sent 2 (.ofSecond 60) ∧
      b.store.find? Pipeline.Sample.id = some { n with
        status := .sent
        attemptCount := 2
        errorMessage := none
        nextRetryAt := none
        updatedAt := .ofSecond 60
        sentAt := some (.ofSecond 60)
        failedAt := none
        version := n.version + 2 } ∧
      (b.queue.liveJobs.filter fun job => job.notificationId == Pipeline.Sample.id) = [] := by
  have given {c c' : Choice} (mem : c' ∈ List.replicate 8 c) : c' = c :=
    List.eq_of_mem_replicate mem
  have start : ∃ n, Delivered patient submission Pipeline.Sample.id n [] created := by
    have fresh : (Pipeline.initial clock).backend.Shows Pipeline.Sample.id none [] [] :=
      ⟨rfl, rfl, rfl, rfl, rfl⟩
    exact ⟨_, .follow_create fresh (fun c mem => given mem ▸ rfl) rfl⟩
  obtain ⟨n, start⟩ := start
  have fails : ∃ first, first.said = .error (.network "down") ∧ first.reportedAt = clock ∧
      Delivered patient submission Pipeline.Sample.id n [first]
        (patient.handle (.ofSeconds 60) firstLease (List.replicate 8 failure) created).2.2 :=
    ⟨_, rfl, rfl, start.handle rfl rfl (fun c mem => given mem ▸ rfl) rfl
      (List.mem_of_getElem? (i := 3) rfl)⟩
  obtain ⟨first, down, failedAt, first_handled⟩ := fails
  have waits : Delivered patient submission Pipeline.Sample.id n [first] due :=
    .meanwhile first_handled (.single (.passes (by decide)))
  have succeeds : ∃ second b, second.said = .ok () ∧ second.reportedAt = .ofSecond 60 ∧
      Delivered patient submission Pipeline.Sample.id n [first, second] b :=
    ⟨_, (patient.handle (.ofSeconds 60) secondLease (List.replicate 8 choice) due).2.2, rfl, rfl,
      waits.handle rfl rfl (fun c mem => given mem ▸ rfl) rfl (List.mem_of_getElem? (i := 3) rfl)⟩
  obtain ⟨second, b, ok, sentAt, delivered⟩ := succeeds
  have fate : patient.fate [first, second] = .sent 2 (.ofSecond 60) := by
    simp only [Deployment.fate, List.map_cons, List.map_nil, Round.attempted, down, ok,
      failedAt, sentAt]
    rfl
  obtain ⟨_, stored, leaves, _⟩ :=
    delivered_as_folded rfl (by decide) (by decide) rfl delivered
  rw [Deployment.record, fate] at stored leaves
  exact ⟨n, first, second, b, delivered, down, ok, fate, stored, leaves⟩

end Courier
