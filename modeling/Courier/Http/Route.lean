import Courier.Http.Message
import Courier.Text.Percent
import Courier.Uuid

namespace Courier.Http

open Courier.Text

inductive Resource where
  | live
  | ready
  | notifications
  | notification (id : String)
  | retryFailed
  | retryOne (id : String)
  | retryStatus
  | stats
  deriving DecidableEq

/-- What a request asks of a resource. -/
inductive Endpoint where
  | live
  | ready
  | list
  | create
  | show (id : String)
  | retryFailed
  | retryOne (id : String)
  | retryStatus
  | stats
  deriving DecidableEq

namespace Resource

/-- The resource at a path. An identifier is never empty. -/
def ofPath? (path : String) : Option Resource :=
  match (splitOn '/' path.toList).map String.ofList with
  | ["", "health", "live"] => some live
  | ["", "health", "ready"] => some ready
  | ["", "api", "notifications"] => some notifications
  | ["", "api", "notifications", id] => if id = "" then none else some (notification id)
  | ["", "api", "admin", "notifications", "retry-failed"] => some retryFailed
  | ["", "api", "admin", "notifications", "retry-status"] => some retryStatus
  | ["", "api", "admin", "notifications", "stats"] => some stats
  | ["", "api", "admin", "notifications", id, "retry"] =>
    if id = "" then none else some (retryOne id)
  | _ => none

/-- What the method does with the resource. Asking for the head of an answer does what asking for
the answer does. -/
def endpoint? (r : Resource) (method : String) : Option Endpoint :=
  let reads := method == "GET" || method == "HEAD"
  match r with
  | live => if reads then some .live else none
  | ready => if reads then some .ready else none
  | notifications =>
    if reads then some .list else if method = "POST" then some .create else none
  | notification id => if reads then some (.show id) else none
  | retryFailed => if method = "POST" then some .retryFailed else none
  | retryOne id => if method = "POST" then some (.retryOne id) else none
  | retryStatus => if reads then some .retryStatus else none
  | stats => if reads then some .stats else none

def allowed : Resource → String
  | notifications => "GET,HEAD,POST"
  | retryFailed | retryOne _ => "POST"
  | _ => "GET,HEAD"

/-- Whether a request with that method is subject to the rate limit. Reading notifications and
asking after health is not. -/
def isLimited (r : Resource) (method : String) : Bool :=
  match r with
  | live | ready | notification _ => false
  | notifications => !(method == "GET" || method == "HEAD")
  | retryFailed | retryOne _ | retryStatus | stats => true

end Resource

def pathId? (id : String) : Option Uuid := (ofUtf8? (percentDecode id.toList)).bind Uuid.parse

end Courier.Http
