import Courier.Uuid
import Courier.Status
import Courier.Channel

namespace Courier

inductive Error where
  | database (text : String)
  | redis (text : String)
  | validation (text : String)
  | notFound (text : String)
  | invalidState (text : String)
  | queueUnavailable (text : String)
  | storeUnavailable (text : String)
  | conflict (text : String)
  | auth (text : String)
  | forbidden (text : String)
  | rateLimited (retryAfterSeconds : Nat)
  | config (text : String)
  | internal (text : String)
  deriving DecidableEq

namespace Error

/-- The text without the name of its kind. -/
def text : Error → String
  | database t | redis t | validation t | notFound t | invalidState t | queueUnavailable t
  | storeUnavailable t | conflict t | auth t | forbidden t | config t | internal t => t
  | rateLimited _ => "Rate limit exceeded"

def display : Error → String
  | database t => "Database error: " ++ t
  | redis t => "Redis error: " ++ t
  | validation t => "Validation error: " ++ t
  | notFound t => "Not found: " ++ t
  | invalidState t => "Invalid state: " ++ t
  | queueUnavailable t => "Queue unavailable: " ++ t
  | storeUnavailable t => "Store unavailable: " ++ t
  | conflict t => "Concurrent modification: " ++ t
  | auth t => "Authentication error: " ++ t
  | forbidden t => "Forbidden: " ++ t
  | rateLimited _ => "Rate limit exceeded"
  | config t => "Configuration error: " ++ t
  | internal t => "Internal error: " ++ t

/-- A backing service could not be reached. -/
def isUnavailable : Error → Bool
  | database _ | redis _ | queueUnavailable _ | storeUnavailable _ => true
  | _ => false

/-- A write came too late: another writer changed the record after it was read. -/
def isConflict : Error → Bool
  | conflict _ => true
  | _ => false

def isQueueUnavailable : Error → Bool
  | queueUnavailable _ => true
  | _ => false

def invalidRecipient (channel : Channel) (recipient : String) : Error :=
  validation s!"Invalid recipient '{recipient}' for channel {channel.name}"

def payloadNotAnObject : Error := validation "Payload must be a JSON object"

def missingFields (channel : Channel) (fields : List String) : Error :=
  let names := String.intercalate ", " fields
  validation s!"Payload for channel {channel.name} is missing required field(s): {names}"

def alreadyExists (id : Uuid) : Error := conflict s!"Notification {id.render} already exists"

def notificationNotFound (id : Uuid) : Error := notFound s!"Notification {id.render} not found"

def versionChanged (id : Uuid) (expected found : Int) : Error :=
  conflict s!"Notification {id.render} changed (expected version {expected}, found {found})"

def cannotBeEnqueued (id : Uuid) (status : Status) : Error :=
  invalidState s!"Notification {id.render} is {status.name} and cannot be enqueued"

def leftPending (id : Uuid) (cause : Error) : Error :=
  queueUnavailable
    s!"Notification {id.render} saved as PENDING but could not be queued: {cause.display}"

def retryNotScheduled (id : Uuid) (cause : Error) : Error :=
  queueUnavailable
    s!"Could not schedule retry for notification {id.render}: {cause.display}"

def changedWhileQueued (id : Uuid) : Error :=
  conflict s!"Notification {id.render} kept changing while being queued"

def changedWhileRecorded (id : Uuid) (attempt : Nat) : Error :=
  conflict s!"Notification {id.render} kept changing while recording attempt {attempt}"

def notFailed (id : Uuid) (status : Status) : Error :=
  invalidState
    s!"Notification {id.render} is {status.name}, only FAILED notifications can be retried"

def changedWhileReset (id : Uuid) : Error :=
  conflict s!"Notification {id.render} kept changing while being reset"

end Error
end Courier
