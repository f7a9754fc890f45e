import Courier.Decimal.Reading
import Courier.RateLimit.Limiter
import Courier.Remote.Conversation
import Courier.Text.Quoted
import Courier.Width

namespace Courier.Remote

/-- The part of the server's keys that belongs to the buckets. -/
structure Buckets where
  keyspace : String

namespace Buckets

open RateLimit

def unavailable (f : Failure) : Error := .redis f.message

def badCount (text : String) : Error :=
  let quoted := Text.quoted text
  let reason :=
    if text = "" then "cannot parse float from empty string" else "invalid float literal"
  .internal s!"Bad token count {quoted}: {reason}"

/-- The idle time in milliseconds, of which a bucket has at least one. -/
def idleMillis (c : Config Float) : Nat := max 1 (min c.idleTtl.millis (Width.limit64 - 1))

def acquire (bs : Buckets) (c : Config Float) (key : String) (now : Instant) :
    Talk (Except Error (Grant Float)) := do
  let r ← runScript [bs.keyspace ++ ":" ++ key]
    [.integer c.capacity, .amount (c.refillPerSecond / 1000.0), .integer now.epochMillis,
      .integer (idleMillis c)]
  match r.bind (Reply.pair Reply.signed Reply.string) with
  | .error e => pure (.error (unavailable e))
  | .ok (acquired, text) =>
    match Decimal.float? text with
    | none => pure (.error (badCount text))
    | some tokens => pure (.ok ⟨acquired == 1, tokens⟩)

/-- One request for admission through a limiter; nothing if the time to wait is no duration. -/
def check (bs : Buckets) (l : Limiter Float) (key : String) (now : Instant) :
    Talk (Option (Except Error Admission)) := do
  pure (l.admission? (← bs.acquire l.config key now))

end Buckets
end Courier.Remote
