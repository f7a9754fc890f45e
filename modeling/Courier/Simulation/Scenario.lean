import Courier.Settings
import Courier.Simulation.Schedule

namespace Courier.Simulation

inductive Step where
  | advance (millis : Nat)
  | setClock (t : Instant)
  | sleep (millis : Nat)
  | available (store queue buckets : Option Bool)
  | hang (store queue : Bool)
  | disturb (t : Target) (d : Disturbance)
  | storeInsert (n : Notification)
  | bulkInsert (n : Notification) (count : Nat)
  | storeGet (id : Uuid)
  | storeUpdate (id : Uuid) (changes : Changes)
  | storeScan (filter : Filter)
  | storeSize
  | storePing
  | create (s : Submission)
  | get (id : Uuid)
  | list (filter : Filter)
  | markQueued (id : Uuid)
  | resetFailed (id : Uuid)
  | enqueue (id : Uuid) (changes : Changes)
  | record (id : Uuid) (attempt : Nat) (outcome : Outcome)
  | retryFailed (limit : Option Nat)
  | retryOne (id : Uuid)
  | retryStatus
  | stats
  | push (id : Uuid) (attempt : Nat) (visibleIn : Int)
  | lease (wait leaseFor : Duration)
  | ack (token : Uuid)
  | depth
  | queuePing
  | jobs
  | script (recipient : String) (items : List ScriptItem)
  | process (lease : Lease)
  | processNext
  | processBoth (first second : Lease)
  | runPool (size : Option Nat) (millis : Nat) (recoverQueue : Bool)
  | sent
  | live
  | ready
  | watching
  | stopWatch
  | limit (key : String) (times : Nat)
  | http (r : Http.Request)

inductive Answer where
  | ok (v : Json)
  /-- A value with something beside it. -/
  | okWith (v : Json) (beside : List (String × Json))
  | error (e : Error)
  | response (r : Http.Response)
  | leased (l : Option Lease)
  | broken

namespace Answer

def ofResult {α : Type} (encode : α → Json) : Option (Except Error α) → Answer
  | none => broken
  | some (.error e) => error e
  | some (.ok a) => ok (encode a)

end Answer

def recordJson (n : Notification) : Json := .object (n.members ++ [("version", .integer n.version)])

def recordsJson (ns : List Notification) : Json := .array (ns.map recordJson)

def recordedJson (r : Service.Recorded) : Json :=
  let kind := match r with
    | .sent _ => "sent"
    | .retryScheduled _ => "retry_scheduled"
    | .failed _ => "failed"
    | .stale _ => "stale"
  .object [("kind", .string kind), ("notification", recordJson r.notification)]

def jobOutcomeJson : Worker.JobOutcome → Json
  | .recorded r => .object [("recorded", recordedJson r)]
  | .skipped => .string "skipped"
  | .retained => .string "retained"

namespace World

def initial (setup : Setup) (start : Instant) : World :=
  let registered : List Event := setup.emitters.map fun (channel, kind) =>
    ⟨.info, "Emitter registered",
      [("channel_type", .text channel.name), ("emitter", .text kind.name)]⟩
  { setup
    backend := ⟨.empty, .empty, start, 1⟩
    events := registered.reverse }

/-- By the instant from which they are visible, notifications made by programs after others. -/
def jobPrecedes (w : World) (a b : Job) : Bool :=
  let key (j : Job) := (j.visibleAt.key, (w.inserted.contains j.notificationId).toNat,
    j.notificationId.toNat, j.attempt)
  let (a1, a2, a3, a4) := key a
  let (b1, b2, b3, b4) := key b
  a1 < b1 || (a1 == b1 && (a2 < b2 || (a2 == b2 && (a3 < b3 || (a3 == b3 && a4 ≤ b4)))))

def jobsJson (w : World) : Json :=
  .array ((w.backend.queue.liveJobs.mergeSort w.jobPrecedes).map Job.toJson)

/-- Messages by recipient, in the order in which they were sent. -/
def sentJson (w : World) : Json :=
  let recipients := (w.sent.map Prod.fst).eraseDups
  .object (recipients.map fun r =>
    (r, .array ((w.sent.filter fun (recipient, _) => recipient == r).map fun (_, m) => m.toJson)))

def recordOrBlank (w : World) (id : Uuid) : Notification :=
  (w.backend.store.find? id).getD
    (.create id ⟨.email, "", .null⟩ w.backend.clock)

def call {α : Type} (w : World) (encode : α → Json) (p : Prog (Except Error α)) :
    Answer × World :=
  let (result, w) := perform p w
  (.ofResult encode result, w)

def direct {β : Type} (w : World) (encode : β → Json) (s : Backend.Step (Except Error β)) :
    Answer × World :=
  (.ofResult encode (some s.reply), w.after s)

def storeSize (w : World) : Nat := w.backend.store.records.length

/-- Copies of a record, each with the next identifier and a second later. -/
def bulkInsert (w : World) (n : Notification) : (count : Nat) → (done : Nat) → Answer × World
  | 0, _ => (.ok (.ofNat w.storeSize), w)
  | count + 1, done =>
    match n.createdAt.add? (.ofSeconds done) with
    | none => (.broken, w)
    | some createdAt =>
      let s := w.backend.insert { n with id := .ofNat (n.id.toNat + done), createdAt }
      match s.reply with
      | .error e => (.error e, w.after s)
      | .ok () => bulkInsert (w.after s) n count (done + 1)

def checkAll (w : World) (l : RateLimit.Limiter Float) :
    List String → Option (List (Except Error RateLimit.Admission)) × World
  | [] => (some [], w)
  | key :: rest =>
    match perform (l.check key) w with
    | (none, w) => (none, w)
    | (some answer, w) =>
      let (answers, w) := checkAll w l rest
      (answers.map (answer :: ·), w)

/-- An admission with the seconds to wait, which are none if it is allowed. -/
def admissionJson (a : RateLimit.Admission) : Json :=
  let wait := if a.allowed then 0 else a.retryAfterSeconds
  .array [.bool a.allowed, .ofNat a.remaining, .ofNat wait]

/-- Requests for admission under one key. The first error is the answer to all. -/
def limit (w : World) (key : String) (times : Nat) : Answer × World :=
  match w.checkAll w.setup.app.limiter (List.replicate times key) with
  | (none, w) => (.broken, w)
  | (some answers, w) =>
    (.ofResult (fun as => .array (as.map admissionJson)) (some (answers.mapM id)), w)

def processProg (w : World) (lease : Lease) : Prog Worker.JobOutcome :=
  Worker.process w.setup.app.policy w.emitterNames w.setup.worker.sendLimit lease

def processOne (w : World) (lease : Lease) : Answer × World :=
  match perform (w.processProg lease) w with
  | (some outcome, w) => (.ok (jobOutcomeJson outcome), w)
  | (none, w) => (.broken, w)

def push (w : World) (id : Uuid) (attempt : Nat) (visibleIn : Int) : Answer × World :=
  match w.backend.clock.shift? visibleIn with
  | none => (.broken, w)
  | some visibleAt =>
    match w.enqueue ⟨id, attempt, w.backend.clock, visibleAt⟩ with
    | (.ok (), w) => (.ok w.jobsJson, w)
    | (.error e, w) => (.error e, w)

/-- Enqueues the record that the service finds, with changes that nobody has stored. -/
def enqueueChanged (id : Uuid) (changes : Changes) : Prog (Except Error Notification) := do
  match ← Service.get id with
  | .error e => pure (.error e)
  | .ok n => Service.enqueue (changed changes n)

def step (w : World) : Step → Answer × World
  | .advance millis =>
    match w.advance? millis with
    | some w => (.ok (Notification.timeJson w.backend.clock), w)
    | none => (.broken, w)
  | .setClock t =>
    (.ok (Notification.timeJson t), { w with backend := { w.backend with clock := t } })
  | .sleep millis => (.ok (.bool true), sleep millis w)
  | .available store queue buckets =>
    let w := (store.map w.setStoreAvailable).getD w
    let w := (queue.map w.setQueueAvailable).getD w
    (.ok (.bool true), (buckets.map fun b => { w with bucketsDown := !b }).getD w)
  | .hang store queue => (.ok (.bool true), { w with storeHangs := store, queueHangs := queue })
  | .disturb t d => (.ok (.bool true), { w with disturbances := w.disturbances.put t d })
  | .storeInsert n =>
    let s := w.backend.insert n
    let w := w.after s
    (.ofResult (fun () => .ofNat w.storeSize) (some s.reply), w)
  | .bulkInsert n count => w.bulkInsert n count 0
  | .storeGet id =>
    (.ofResult (Json.ofOption recordJson) (some (w.backend.store.get id)), w)
  | .storeUpdate id changes =>
    match w.backend.store.get id with
    | .error e => (.error e, w)
    | .ok _ => w.direct recordJson (w.backend.update (changed changes (w.recordOrBlank id)))
  | .storeScan filter => (.ofResult recordsJson (some (w.backend.store.scan filter)), w)
  | .storeSize =>
    (.okWith (.ofNat w.storeSize) [("empty", .bool (w.storeSize == 0))], w)
  | .storePing => (.ofResult (fun () => .bool true) (some w.backend.store.ping), w)
  | .create s => w.call recordJson (Service.create s)
  | .get id => w.call recordJson (Service.get id)
  | .list filter => w.call recordsJson (Service.list filter)
  | .markQueued id => w.call recordJson (Service.markQueued id)
  | .resetFailed id => w.call recordJson (Service.resetFailed id)
  | .enqueue id changes => w.call recordJson (enqueueChanged id changes)
  | .record id attempt outcome =>
    w.call recordedJson (Service.record w.setup.app.policy id attempt outcome)
  | .retryFailed limit => w.call Recovery.Summary.toJson (Recovery.retryFailed limit)
  | .retryOne id => w.call recordJson (Recovery.retryOne id)
  | .retryStatus => w.call Recovery.Backlog.toJson Recovery.retryStatus
  | .stats => w.call (fun (s, depth) => s.toJson depth) Recovery.stats
  | .push id attempt visibleIn => w.push id attempt visibleIn
  | .lease wait leaseFor =>
    match perform (Prog.lease wait leaseFor) w with
    | (some (some (.ok l)), w) => (.leased l, w)
    | (some (some (.error e)), w) => (.error e, w)
    | (_, w) => (.broken, w)
  | .ack token => w.direct .bool (w.backend.ack token)
  | .depth => (.ofResult Queue.Depth.toJson (some w.backend.queue.depth), w)
  | .queuePing => (.ofResult (fun () => .bool true) (some w.backend.queue.ping), w)
  | .jobs => (.ok w.jobsJson, w)
  | .script recipient items =>
    let others := w.scripts.filter fun (r, _) => r != recipient
    (.ok (.bool true), { w with scripts := (recipient, items) :: others })
  | .process lease => w.processOne lease
  | .processNext =>
    match perform (Prog.lease .zero w.setup.worker.leaseFor) w with
    | (some (some (.ok none)), w) => (.ok .null, w)
    | (some (some (.ok (some lease))), w) => w.processOne lease
    | (some (some (.error e)), w) => (.error e, w)
    | (_, w) => (.broken, w)
  | .processBoth first second =>
    match performBoth (w.processProg first) (w.processProg second) w with
    | (some a, some b, w) => (.ok (.array [jobOutcomeJson a, jobOutcomeJson b]), w)
    | (_, _, w) => (.broken, w)
  | .runPool size millis recoverQueue =>
    let w := w.runPool (size.getD w.setup.worker.concurrency) millis recoverQueue
    match w.backend.store.scan .any with
    | .error e => (.error e, w)
    | .ok ns => (.okWith (recordsJson ns) [("jobs", w.jobsJson)], w)
  | .sent => (.ok w.sentJson, w)
  | .live => (.ok (.object [("status", .string "alive")]), w)
  | .ready =>
    match perform (Health.checkReady w.setup.app.health) w with
    | (some r, w) => (.okWith r.toJson [("reconnecting", .bool w.health.watching)], w)
    | (none, w) => (.broken, w)
  | .watching => (.ok (.bool w.health.watching), w)
  | .stopWatch => (.ok (.bool true), { w with watchStops := true })
  | .limit key times => w.limit key times
  | .http r =>
    match perform (w.setup.app.handle r) w with
    | (some response, w) => (.response response, w)
    | (none, w) => (.broken, w)

/-- The events since the last time, in their order, and the world without them. -/
def takeEvents (w : World) : List Event × World := (w.events.reverse, { w with events := [] })

end World
end Courier.Simulation
