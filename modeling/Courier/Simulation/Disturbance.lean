import Courier.Backend

namespace Courier.Simulation

abbrev Changes := List (String × Json)

def changed (changes : Changes) (n : Notification) : Notification :=
  let own := ("version", Json.integer n.version) :: n.members
  let kept := own.filter fun (name, _) => !(changes.any fun (k, _) => k == name)
  match Json.decode Notification.decoder (Json.object (kept ++ changes)).render with
  | .ok next => next
  | .error _ => n

inductive Target where
  | update
  | get
  | enqueue
  deriving DecidableEq

structure Disturbance where
  /-- Calls that still pass. -/
  skip : Nat
  /-- Calls that are still disturbed after that. -/
  count : Nat
  changes : Changes
  /-- The call fails, and nobody writes. -/
  fail : Bool

structure Disturbances where
  update : Option Disturbance := none
  get : Option Disturbance := none
  enqueue : Option Disturbance := none

namespace Disturbances

def find (ds : Disturbances) : Target → Option Disturbance
  | .update => ds.update
  | .get => ds.get
  | .enqueue => ds.enqueue

def put (ds : Disturbances) (t : Target) (d : Disturbance) : Disturbances :=
  match t with
  | .update => { ds with update := some d }
  | .get => { ds with get := some d }
  | .enqueue => { ds with enqueue := some d }

/-- One more call: the disturbance of it, if there is one, and what is left. -/
def next (ds : Disturbances) (t : Target) : Option Disturbance × Disturbances :=
  match ds.find t with
  | none => (none, ds)
  | some d =>
    if 0 < d.skip then (none, ds.put t { d with skip := d.skip - 1 })
    else if 0 < d.count then (some d, ds.put t { d with count := d.count - 1 })
    else (none, ds)

end Disturbances

def scriptedFailure : Error := .storeUnavailable "scripted failure"

def scriptedRejection : Error := .queueUnavailable "scripted rejection"

/-- Another writer changes the record, if the store can be reached and has it. -/
def competingWrite (b : Backend) (id : Uuid) (changes : Changes) : Backend :=
  match b.store.get id with
  | .ok (some n) => (b.update (changed changes n)).backend
  | _ => b

end Courier.Simulation
