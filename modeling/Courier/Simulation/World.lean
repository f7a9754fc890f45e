import Courier.Http.Handler
import Courier.Simulation.Disturbance
import Courier.Worker

/-!
A world in which programs run. It has two clocks: the clock of the backends stands still until it is
moved, and task time passes while programs wait. Dependencies can be lost or hang, single calls can
be disturbed, and messages go to emitters that answer from a script.
-/
namespace Courier.Simulation

structure ScriptItem where
  storeDown : Bool := false
  queueDown : Bool := false
  /-- Milliseconds by which the clock of the backends moves. -/
  advance : Nat := 0
  /-- Milliseconds of task time before the answer. -/
  delay : Nat := 0
  result : Except EmitError Unit := .ok ()

inductive EmitterKind where
  | scripted
  | log
  deriving DecidableEq

namespace EmitterKind

def name : EmitterKind → String
  | scripted => "scripted"
  | log => "log"

end EmitterKind

structure Setup where
  app : Http.App
  worker : Worker.Config
  emitters : List (Channel × EmitterKind)
  /-- The services keep their records in a remote store that cannot be reached. -/
  remoteStore : Bool
  /-- Findings about dependencies are remembered without end. -/
  remembers : Bool
  wallSeconds : Nat

/-- How far a waiting request has come: when it is looked at again, when it ends, the answer that it
ends with, and how many jobs had been pushed when it was last looked at. -/
structure Progress where
  wakeAt : Nat
  endsAt : Nat
  result : Option (Except EmitError Unit) := none
  pushes : Nat := 0

inductive Role where
  /-- Starts workers and ends. -/
  | pool (size : Nat)
  | worker (number : Nat)
  | watch
  deriving DecidableEq

/-- A task in the background: its role, its rounds so far, what is left of the current one, and its
place among the tasks that are ready to go on. -/
structure Task where
  role : Role
  rounds : Nat
  rest : Prog Bool
  progress : Option Progress
  ready : Option Nat

structure World where
  setup : Setup
  backend : Backend
  /-- Milliseconds of task time. -/
  time : Nat := 0
  storeHangs : Bool := false
  queueHangs : Bool := false
  bucketsDown : Bool := false
  disturbances : Disturbances := {}
  buckets : RateLimit.Buckets Float := .empty
  health : Health.Memory := .initial
  scripts : List (String × List ScriptItem) := []
  sent : List (String × Message) := []
  /-- Notifications that programs have inserted. -/
  inserted : List Uuid := []
  /-- Events in reverse. -/
  events : List Event := []
  tasks : List Task := []
  /-- How often a task became ready. -/
  readied : Nat := 0
  /-- How often a job was pushed that was not waiting already. -/
  pushes : Nat := 0
  workersStop : Bool := false
  watchStops : Bool := false

inductive Poll (β : Type) where
  | ready (reply : β) (w : World)
  | waiting (p : Progress) (w : World)
  | broken (w : World)

namespace World

def log (w : World) (e : Event) : World := { w with events := e :: w.events }

def logAll (w : World) (es : List Event) : World := { w with events := es.reverse ++ w.events }

def after {β : Type} (w : World) (s : Backend.Step β) : World :=
  { w with backend := s.backend }.logAll s.events

def setStoreAvailable (w : World) (available : Bool) : World :=
  { w with backend := { w.backend with store := { w.backend.store with available } } }

def setQueueAvailable (w : World) (available : Bool) : World :=
  { w with backend := { w.backend with queue := { w.backend.queue with available } } }

/-- Moves the clock of the backends; nothing if it would leave all dates. -/
def advance? (w : World) (millis : Nat) : Option World :=
  (w.backend.clock.add? (.ofMillis millis)).map fun clock =>
    { w with backend := { w.backend with clock } }

/-- How long a call of the remote store takes to fail, in milliseconds. -/
def remoteLimit : Nat := 5000

def remoteError : Error :=
  .storeUnavailable "pool timed out while waiting for an open connection"

/-- A call of the services' store, or its failure after a while if that is remote. -/
def storeCall {β : Type} (w : World) (p : Option Progress)
    (call : World → Except Error β × World) : Poll (Except Error β) :=
  if w.setup.remoteStore then
    match p with
    | none => .waiting ⟨w.time + remoteLimit, w.time + remoteLimit, none, 0⟩ w
    | some p => if p.endsAt ≤ w.time then .ready (.error remoteError) w else .waiting p w
  else
    let (reply, w) := call w
    .ready reply w

/-- A call on one record, before which another writer may come. -/
def recordCall {β : Type} (w : World) (p : Option Progress) (t : Target) (id : Uuid)
    (call : World → Except Error β × World) : Poll (Except Error β) :=
  if p.isSome then w.storeCall p call
  else
    let (d?, disturbances) := w.disturbances.next t
    let w := { w with disturbances }
    match d? with
    | none => w.storeCall p call
    | some d =>
      if d.fail then .ready (.error scriptedFailure) w
      else { w with backend := competingWrite w.backend id d.changes }.storeCall p call

def insert (w : World) (n : Notification) : Except Error Unit × World :=
  let s := w.backend.insert n
  let w := w.after s
  match s.reply with
  | .ok () => (.ok (), { w with inserted := w.inserted ++ [n.id] })
  | .error e => (.error e, w)

def enqueue (w : World) (job : Job) : Except Error Unit × World :=
  let (d?, disturbances) := w.disturbances.next .enqueue
  let w := { w with disturbances }
  match d? with
  | some _ => (.error scriptedRejection, w)
  | none =>
    let s := w.backend.enqueue job
    let pushed := s.backend.queue.nextSequence != w.backend.queue.nextSequence
    let w := w.after s
    (s.reply, if pushed then { w with pushes := w.pushes + 1 } else w)

/-- Waiting for a job looks again after this many milliseconds. -/
def leaseInterval : Nat := 20

/-- One look at the queue for a waiting worker. -/
def lookForJob (w : World) (endsAt : Nat) (leaseFor : Duration) :
    Poll (Option (Except Error (Option Lease))) :=
  let s := w.backend.tryLease leaseFor
  match s.reply with
  | .error e => .ready (some (.error e)) (w.after s)
  | .ok (.leased lease) => .ready (some (.ok (some lease))) (w.after s)
  | .ok .outOfRange => .broken (w.after s)
  | .ok .nothing =>
    let w := w.after s
    if endsAt ≤ w.time then .ready (some (.ok none)) w
    else .waiting ⟨min endsAt (w.time + leaseInterval), endsAt, none, w.pushes⟩ w

def lease (w : World) (p : Option Progress) (stop : Bool) (wait leaseFor : Duration) :
    Poll (Option (Except Error (Option Lease))) :=
  if stop then .ready none w
  else
    match p with
    | none => w.lookForJob (w.time + wait.millis) leaseFor
    | some p =>
      if p.wakeAt ≤ w.time ∨ p.pushes < w.pushes then w.lookForJob p.endsAt leaseFor
      else .waiting p w

def pause (w : World) (p : Option Progress) (stop : Bool) (time : Duration) : Poll Bool :=
  let endsAt := (p.map Progress.endsAt).getD (w.time + time.millis)
  if stop then .ready true w
  else if endsAt ≤ w.time then .ready false w
  else .waiting ⟨endsAt, endsAt, none, 0⟩ w

/-- The next answer in the script for a recipient, which is success when the script has ended. -/
def nextItem (w : World) (recipient : String) : ScriptItem × World :=
  match w.scripts.lookup recipient with
  | some (item :: rest) =>
    (item, { w with scripts := (recipient, rest) :: w.scripts.filter fun (r, _) => r != recipient })
  | _ => ({}, w)

/-- The effects of an answer before its delay; nothing if the clock would leave all dates. -/
def applyItem? (w : World) (item : ScriptItem) : Option World :=
  let w := if item.storeDown then w.setStoreAvailable false else w
  let w := if item.queueDown then w.setQueueAvailable false else w
  w.advance? item.advance

def logMessage (recipient : String) (m : Message) : Event :=
  ⟨.info, "Message logged instead of delivered",
    [("recipient", .text recipient), ("subject", .text (m.subject.getD "")),
      ("chars", .count m.text.utf8ByteSize)]⟩

/-- Sending to an emitter. With `yields`, even an answer without delay lets others go first. -/
def send (w : World) (p : Option Progress) (yields : Bool) (channel : Channel)
    (recipient : String) (m : Message) (limit : Duration) :
    Poll (Option (Except EmitError Unit)) :=
  match p with
  | some p => if p.endsAt ≤ w.time then .ready p.result w else .waiting p w
  | none =>
    match w.setup.emitters.lookup channel with
    | some .log => .ready (some (.ok ())) (w.log (logMessage recipient m))
    | _ =>
      let (item, w) := { w with sent := w.sent ++ [(recipient, m)] }.nextItem recipient
      match w.applyItem? item with
      | none => .broken w
      | some w =>
        let inTime := item.delay ≤ limit.millis
        let result := if inTime then some item.result else none
        let delay := if inTime then item.delay else limit.millis
        if delay = 0 ∧ !yields then .ready result w
        else .waiting ⟨w.time + delay, w.time + delay, result, 0⟩ w

/-- A ping of a dependency. Whether it is answered is settled when it is sent. -/
def probe (w : World) (p : Option Progress) (d : Dependency) (limit : Duration) :
    Poll (Option (Except Error Unit)) :=
  let remote := w.setup.remoteStore && d == .database
  match p with
  | some p => if p.endsAt ≤ w.time then .ready none w else .waiting p w
  | none =>
    let hangs := match d with
      | .database => w.storeHangs || remote
      | .queue => w.queueHangs
    if hangs then .waiting ⟨w.time + limit.millis, w.time + limit.millis, none, 0⟩ w
    else
      match d with
      | .database => .ready (some w.backend.store.ping) w
      | .queue => .ready (some w.backend.queue.ping) w

/-- A task at the beginning of its first round. -/
def spawn (w : World) (role : Role) (rest : Prog Bool) : World :=
  { w with
    tasks := w.tasks ++ [⟨role, 0, rest, none, some w.readied⟩]
    readied := w.readied + 1 }

/-- Takes in a finding about a dependency, and starts a watch if one has to start. -/
def settle (w : World) (d : Dependency) (h : Health) : Health.Change × World :=
  let (change, health) := w.health.settle d h
  let w := { w with health }
  match change with
  | .lost true => (change, w.spawn .watch (Health.watchRound w.setup.app.health 0))
  | _ => (change, w)

def bucketsError : Error := .storeUnavailable "bucket store down"

def acquire (w : World) (config : RateLimit.Config Float) (key : String) (now : Instant) :
    Except Error (RateLimit.Grant Float) × World :=
  if w.bucketsDown then (.error bucketsError, w)
  else
    let (grant, buckets) := w.buckets.acquire config key now
    (.ok grant, { w with buckets })

/-- What is said of a service that does not answer. An address without a path has the root for
one. -/
def connectionError (url : String) : String :=
  let place := (Text.cut? ':' url.toList).map fun (_, rest) => rest.dropWhile (· == '/')
  let root := if place.any fun rest => !rest.contains '/' then "/" else ""
  s!"error sending request for url ({url}{root})"

/-- The answer to a request, if it can be given now. -/
def poll (w : World) (stop yields : Bool) (p : Option Progress) : (r : Request) → Poll r.Reply
  | .now => .ready w.backend.clock w
  | .wallSeconds => .ready w.setup.wallSeconds w
  | .freshId =>
    let (id, backend) := w.backend.freshId
    .ready id { w with backend }
  | .draw _ => .ready (0 : Nat) w
  | .get id => w.recordCall p .get id fun w => (w.backend.store.get id, w)
  | .insert n => w.storeCall p fun w => w.insert n
  | .update n => w.recordCall p .update n.id fun w =>
    let s := w.backend.update n
    (s.reply, w.after s)
  | .scan filter => w.storeCall p fun w => (w.backend.store.scan filter, w)
  | .enqueue job =>
    let (reply, w) := w.enqueue job
    .ready reply w
  | .ack token =>
    let s := w.backend.ack token
    .ready s.reply (w.after s)
  | .depth => .ready w.backend.queue.depth w
  | .lease wait leaseFor => w.lease p stop wait leaseFor
  | .pause time => w.pause p stop time
  | .send channel recipient m limit => w.send p yields channel recipient m limit
  | .probe d limit => w.probe p d limit
  | .remembered d => .ready (if w.setup.remembers then w.health.remembered d else none) w
  | .settle d h =>
    let (change, w) := w.settle d h
    .ready change w
  | .endWatch found => .ready () { w with health := w.health.endWatch found }
  | .acquire config key now =>
    let (reply, w) := w.acquire config key now
    .ready reply w
  | .introspect url => .ready (connectionError url) w

end World

inductive Run (α : Type) where
  | finished (a : α)
  | waiting (rest : Prog α) (p : Progress)
  | broken

/-- Lets a program go on until it ends or has to wait. -/
def run {α : Type} (stop yields : Bool) : Prog α → Option Progress → World → Run α × World
  | .done a, _, w => (.finished a, w)
  | .abort, _, w => (.broken, w)
  | .log e rest, _, w => run stop yields rest none (w.log e)
  | .ask r next, p, w =>
    match w.poll stop yields p r with
    | .ready reply w => run stop yields (next reply) none w
    | .waiting p w => (.waiting (.ask r next) p, w)
    | .broken w => (.broken, w)

end Courier.Simulation
