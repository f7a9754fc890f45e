import Courier.Program
import Courier.Width

namespace Courier.RateLimit

open Prog

structure Limiter (α : Type) where
  config : Config α
  /-- Requests are admitted while the buckets cannot be reached. -/
  failOpen : Bool

namespace Limiter

/-- The answer that a grant or an error of the buckets means; nothing if the time to wait is no
duration. -/
def admission? {α : Type} [Amount α] (l : Limiter α) :
    Except Error (Grant α) → Option (Except Error Admission)
  | .ok grant => (Admission.ofGrant? l.config grant).map .ok
  | .error e => some (if l.failOpen then .ok (.unlimited l.config.capacity) else .error e)

def admittedAnyway (key : String) (e : Error) : Event :=
  ⟨.warn, "Rate limit store unavailable, admitting request",
    [("key", .text key), ("error", .text e.display)]⟩

def rejected (key : String) (a : Admission) : Event :=
  ⟨.debug, "Rate limit exceeded",
    [("key", .text key), ("retry_after_ms", .count (a.retryAfter.millis % Width.limit64))]⟩

def events {α : Type} (key : String) :
    Except Error (Grant α) → Except Error Admission → List Event
  | .error e, .ok _ => [admittedAnyway key e]
  | .ok _, .ok a => if a.allowed then [] else [rejected key a]
  | _, .error _ => []

def check (l : Limiter Float) (key : String) : Prog (Except Error Admission) := do
  let answer ← acquire l.config key (← now)
  let result ← orAbort (l.admission? answer)
  noteAll (events key answer result)
  pure result

end Limiter
end Courier.RateLimit
