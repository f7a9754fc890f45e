import Courier.Program

namespace Courier.Health

open Prog

structure Config where
  cacheTtl : Duration
  reconnectInterval : Duration
  probeLimit : Duration

namespace Config

def standard : Config :=
  { cacheTtl := .ofSeconds 5
    reconnectInterval := .ofSeconds 10
    probeLimit := .ofSeconds 2 }

end Config

structure Readiness where
  database : Health
  queue : Health
  deriving DecidableEq

namespace Readiness

def degraded (r : Readiness) : Bool := !(r.database.healthy && r.queue.healthy)

/-- Work is accepted whatever the state of the dependencies. -/
def ready (_ : Readiness) : Bool := true

def healthJson (h : Health) : Json :=
  .object [("healthy", .bool h.healthy), ("message", .string h.message)]

def toJson (r : Readiness) : Json :=
  .object [
    ("status", .string (if r.degraded then "degraded" else "ready")),
    ("ready", .bool r.ready),
    ("degraded", .bool r.degraded),
    ("dependencies", .object [
      (Dependency.database.key, healthJson r.database),
      (Dependency.queue.key, healthJson r.queue)])]

end Readiness

/-- The events of a new finding. The text of a finding stands for the event's own. -/
def events (h : Health) : Dependency → Change → List Event
  | .queue, _ => if h.healthy then [] else [⟨.warn, h.message, []⟩]
  | .database, .lost _ => [⟨.warn, h.message, []⟩]
  | .database, .recovered => [⟨.info, "Database connection recovered", []⟩]
  | .database, .none => []

/-- The health of a dependency: what is remembered of it, or else what a probe finds. -/
def check (config : Config) (d : Dependency) : Prog Health := do
  match ← remembered d with
  | some h => pure h
  | none =>
    let h := ofPing d config.probeLimit (← probe d config.probeLimit)
    let change ← settle d h
    noteAll (events h d change)
    pure h

def checkReady (config : Config) : Prog Readiness := do
  let database ← check config .database
  let queue ← check config .queue
  pure ⟨database, queue⟩

/-- One round of the watch over a lost database, the last of which was number `rounds`. The answer
says whether another round follows. -/
def watchRound (config : Config) (rounds : Nat) : Prog Bool := do
  if ← pause config.reconnectInterval then
    endWatch false
    pure false
  else
    let attempts := rounds + 1
    match ← probe .database config.probeLimit with
    | some (.ok ()) =>
      note ⟨.info, "Database reachable again, stopping background monitor",
        [("attempts", .count attempts)]⟩
      endWatch true
      pure false
    | some (.error e) =>
      note ⟨.debug, "Database still unreachable",
        [("attempts", .count attempts), ("error", .text e.display)]⟩
      pure true
    | none =>
      note ⟨.debug, "Database probe timed out", [("attempts", .count attempts)]⟩
      pure true

end Courier.Health
