import Courier.Error
import Courier.Time.Duration
import Courier.Json.Basic

namespace Courier

inductive Dependency where
  | database
  | queue
  deriving DecidableEq

namespace Dependency

def key : Dependency → String
  | database => "database"
  | queue => "queue"

def title : Dependency → String
  | database => "Database"
  | queue => "Queue"

end Dependency

structure Health where
  healthy : Bool
  message : String
  deriving DecidableEq

namespace Health

/-- The finding for the answer to a ping, which is missing if it did not come within `limit`. -/
def ofPing (d : Dependency) (limit : Duration) : Option (Except Error Unit) → Health
  | some (.ok ()) => ⟨true, s!"{d.title} connection successful"⟩
  | some (.error e) => ⟨false, s!"{d.title} connection failed: {e.display}"⟩
  | none => ⟨false, s!"{d.title} probe timed out after {limit.millis}ms"⟩

/-- The last findings, while they count, and whether a watch is running. -/
structure Memory where
  database : Option Health
  queue : Option Health
  watching : Bool
  deriving DecidableEq

/-- What a new finding means after the last one. -/
inductive Change where
  | none
  /-- The database was lost; the flag says that a watch has to start. -/
  | lost (startWatch : Bool)
  | recovered
  deriving DecidableEq

namespace Memory

def initial : Memory := ⟨.none, .none, false⟩

def remembered (m : Memory) : Dependency → Option Health
  | .database => m.database
  | .queue => m.queue

/-- Takes in a finding. A watch starts when the database was healthy, or not known to be otherwise,
and is no longer; there is never more than one. -/
def settle (m : Memory) (d : Dependency) (h : Health) : Change × Memory :=
  match d with
  | .queue => (.none, { m with queue := some h })
  | .database =>
    let wasHealthy := m.database.all Health.healthy
    let next := { m with database := some h }
    if wasHealthy && !h.healthy then (.lost (!m.watching), { next with watching := true })
    else if !wasHealthy && h.healthy then (.recovered, next)
    else (.none, next)

/-- The end of the watch. When it found the database again, the last finding is forgotten, so that
the next check probes afresh. -/
def endWatch (m : Memory) (found : Bool) : Memory :=
  { m with watching := false, database := if found then .none else m.database }

end Memory
end Health
end Courier
