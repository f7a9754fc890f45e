import Courier.Simulation.World

/-!
Taking turns. Programs in the foreground go first; when all of them wait, the tasks in the
background that can go on do so, in the order in which they became ready; when everybody waits, task
time moves on to the next moment at which somebody can go on.
-/
namespace Courier.Simulation

namespace World

def stops (w : World) : Role → Bool
  | .watch => w.watchStops
  | .worker _ => w.workersStop
  | .pool _ => false

def awaitsJob : Prog Bool → Bool
  | .ask (.lease _ _) _ => true
  | _ => false

/-- The task can be woken by being told to stop. -/
def heedsStop : Prog Bool → Bool
  | .ask (.lease _ _) _ => true
  | .ask (.pause _) _ => true
  | _ => false

def isDue (w : World) (t : Task) : Bool :=
  match t.progress with
  | none => true
  | some p =>
    p.wakeAt ≤ w.time || (awaitsJob t.rest && p.pushes < w.pushes)
      || (heedsStop t.rest && w.stops t.role)

/-- Tasks that have become able to go on get their places, in the order in which they last went. -/
def markReady (w : World) : World :=
  let mark (acc : List Task × Nat) (t : Task) : List Task × Nat :=
    if t.ready.isNone && w.isDue t then (acc.1 ++ [{ t with ready := some acc.2 }], acc.2 + 1)
    else (acc.1 ++ [t], acc.2)
  let (tasks, readied) := w.tasks.foldl mark ([], w.readied)
  { w with tasks, readied }

def firstReady : List Task → Option (Nat × Task)
  | [] => none
  | t :: rest =>
    match t.ready, firstReady rest with
    | none, best => best
    | some n, none => some (n, t)
    | some n, some (m, u) => if n < m then some (n, t) else some (m, u)

def takeReady (w : World) : Option (Task × World) :=
  (firstReady w.tasks).map fun (n, t) =>
    (t, { w with tasks := w.tasks.filter fun u => u.ready != some n })

def emitterNames (w : World) : Worker.Emitters :=
  w.setup.emitters.map fun (channel, kind) => (channel, kind.name)

def roundOf (w : World) (role : Role) (rounds : Nat) : Prog Bool :=
  match role with
  | .watch => Health.watchRound w.setup.app.health rounds
  | .worker number =>
    Worker.round w.setup.app.policy w.emitterNames w.setup.worker number
  | .pool _ => .done false

def startWorkers (w : World) (size : Nat) : World :=
  (List.range size).foldl
    (fun w number => w.spawn (.worker number) (w.roundOf (.worker number) 0))
    (w.log ⟨.info, "Worker pool started", [("concurrency", .count size)]⟩)

def brokenTask : Role → List Event
  | .worker _ =>
    [⟨.error, "Worker task panicked", [("error", .text "task panicked")]⟩]
  | _ => []

/-- Lets a task go on, round after round, until it waits or ends. -/
def goOn : (fuel : Nat) → World → Task → World
  | 0, w, t => { w with tasks := w.tasks ++ [{ t with ready := none }] }
  | fuel + 1, w, t =>
    match run (w.stops t.role) false t.rest t.progress w with
    | (.waiting rest p, w) =>
      { w with tasks := w.tasks ++ [{ t with rest, progress := some p, ready := none }] }
    | (.broken, w) => w.logAll (brokenTask t.role)
    | (.finished true, w) =>
      let rounds := t.rounds + 1
      goOn fuel w { t with rounds, rest := w.roundOf t.role rounds, progress := none }
    | (.finished false, w) =>
      match t.role with
      | .pool size => w.startWorkers size
      | _ => w

/-- A task runs at most this many rounds without waiting. -/
def roundFuel : Nat := 100000

def settleTasks : (fuel : Nat) → World → World
  | 0, w => w
  | fuel + 1, w =>
    match w.markReady.takeReady with
    | none => w
    | some (t, w) => settleTasks fuel (goOn roundFuel w t)

def nextWake (w : World) : Option Nat :=
  (w.tasks.filterMap fun t => t.progress.map Progress.wakeAt).min?

end World

/-- A program in the foreground: running, waiting, or at its end. -/
inductive Foreground (α : Type) where
  | active (rest : Prog α) (p : Option Progress)
  | ended (result : Option α)

namespace Foreground

variable {α : Type}

def isEnded : Foreground α → Bool
  | ended _ => true
  | active _ _ => false

def wakeAt : Foreground α → Option Nat
  | active _ (some p) => some p.wakeAt
  | _ => none

def isDue (w : World) : Foreground α → Bool
  | active _ none => true
  | active rest (some p) =>
    p.wakeAt ≤ w.time
      || match rest with
        | .ask (.lease _ _) _ => p.pushes < w.pushes
        | _ => false
  | ended _ => false

def step (yields : Bool) (f : Foreground α) (w : World) : Foreground α × World :=
  match f with
  | ended result => (ended result, w)
  | active rest p =>
    if f.isDue w then
      match run false yields rest p w with
      | (.finished a, w) => (ended (some a), w)
      | (.waiting rest p, w) => (active rest (some p), w)
      | (.broken, w) => (ended none, w)
    else (active rest p, w)

def stepAll (yields : Bool) : List (Foreground α) → World → List (Foreground α) × World
  | [], w => ([], w)
  | f :: fs, w =>
    let (f, w) := f.step yields w
    let (fs, w) := stepAll yields fs w
    (f :: fs, w)

def result? : Foreground α → Option α
  | ended result => result
  | active _ _ => none

end Foreground

/-- Lets everybody take turns until the programs in the foreground have ended and `enough` holds. -/
def takeTurns {α : Type} (yields : Bool) (enough : World → Bool) :
    (fuel : Nat) → List (Foreground α) → World → List (Foreground α) × World
  | 0, fs, w => (fs, w)
  | fuel + 1, fs, w =>
    let (fs, w) := Foreground.stepAll yields fs w
    if fs.all Foreground.isEnded && enough w then (fs, w)
    else
      let w := w.settleTasks World.roundFuel
      if fs.any (Foreground.isDue w) then takeTurns yields enough fuel fs w
      else if fs.all Foreground.isEnded && enough w then (fs, w)
      else
        match (fs.filterMap Foreground.wakeAt ++ w.nextWake.toList).min? with
        | none => (fs, w)
        | some time => takeTurns yields enough fuel fs { w with time := max w.time time }

/-- Task time moves at most this often while something runs in the foreground. -/
def turnFuel : Nat := 100000000

/-- Runs a program in the foreground; no result means that it broke off. -/
def perform {α : Type} (p : Prog α) (w : World) : Option α × World :=
  let (fs, w) := takeTurns false (fun _ => true) turnFuel [.active p none] w
  ((fs.head?.bind Foreground.result?), w)

/-- Runs two programs at once, each of which lets the other go first when it sends. -/
def performBoth {α : Type} (p q : Prog α) (w : World) : Option α × Option α × World :=
  let (fs, w) := takeTurns true (fun _ => true) turnFuel [.active p none, .active q none] w
  match fs with
  | [f, g] => (f.result?, g.result?, w)
  | _ => (none, none, w)

def sleep (millis : Nat) (w : World) : World :=
  (perform (Prog.pause (.ofMillis millis)) w).2

namespace World

def isPoolTask (t : Task) : Bool :=
  match t.role with
  | .watch => false
  | _ => true

/-- Runs a pool of workers for some time, then tells them to stop and waits for the jobs that they
are at. In between, the queue may come back, and then they run for the same time again. -/
def runPool (w : World) (size millis : Nat) (recoverQueue : Bool) : World :=
  let w := sleep millis (w.spawn (.pool size) (.done false))
  let w := if recoverQueue then sleep millis (w.setQueueAvailable true) else w
  let stopped : List (Foreground Unit) × World :=
    takeTurns false (fun w => !(w.tasks.any isPoolTask)) turnFuel [] { w with workersStop := true }
  { stopped.2 with workersStop := false }.log ⟨.info, "Worker pool stopped", []⟩

end World
end Courier.Simulation
