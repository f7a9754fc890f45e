import Courier.Channel
import Courier.Json.Decoder
import Courier.Json.Printer
import Courier.Status
import Courier.Time.Rfc3339
import Courier.Uuid
import Courier.Width

namespace Courier

structure Notification where
  id : Uuid
  channel : Channel
  recipient : String
  payload : Json
  status : Status
  /-- Delivery attempts that have failed, and the one that succeeded. -/
  attemptCount : Nat
  nextRetryAt : Option Instant
  errorMessage : Option String
  createdAt : Instant
  updatedAt : Instant
  queuedAt : Option Instant
  sentAt : Option Instant
  /-- When the notification last failed for good. -/
  failedAt : Option Instant
  /-- Raised by every write to the store. -/
  version : Int

/-- What a caller asks to have delivered. -/
structure Submission where
  channel : Channel
  recipient : String
  payload : Json

/-- Conditions on notifications, of which those left out hold of all, and the part of the matches
that is wanted. -/
structure Filter where
  status : Option Status
  channel : Option Channel
  recipient : Option String
  limit : Option Nat
  offset : Option Nat

namespace Filter

def any : Filter := ⟨none, none, none, none, none⟩

def withStatus (status : Status) : Filter := { any with status := some status }

def accepts (f : Filter) (n : Notification) : Bool :=
  f.status.all (· == n.status) && f.channel.all (· == n.channel)
    && f.recipient.all (· == n.recipient)

end Filter

namespace Notification

/-- One more than the largest attempt count. -/
def attemptLimit : Nat := Width.limit32

def create (id : Uuid) (submission : Submission) (now : Instant) : Notification :=
  { id
    channel := submission.channel
    recipient := submission.recipient
    payload := submission.payload
    status := .pending
    attemptCount := 0
    nextRetryAt := none
    errorMessage := none
    createdAt := now
    updatedAt := now
    queuedAt := none
    sentAt := none
    failedAt := none
    version := 0 }

def queuedFrom (n : Notification) (now : Instant) : Notification :=
  { n with status := .queued, queuedAt := some now, updatedAt := now }

def failedWith (n : Notification) (now : Instant) (message : String) : Notification :=
  { n with
    status := .failed
    failedAt := some now
    errorMessage := some message
    nextRetryAt := none
    sentAt := none }

/-- A failed record with a fresh attempt budget. -/
def resetAt (n : Notification) (now : Instant) : Notification :=
  { n with
    status := .pending
    attemptCount := 0
    errorMessage := none
    nextRetryAt := none
    queuedAt := none
    sentAt := none
    failedAt := none
    updatedAt := now }

def timeJson (t : Instant) : Json := .string (Rfc3339.render t)

/-- The members that callers see; the version is not one of them. -/
def members (n : Notification) : List (String × Json) :=
  [("id", .string n.id.render),
   ("channel_type", .string n.channel.name),
   ("recipient", .string n.recipient),
   ("payload", n.payload),
   ("status", .string n.status.name),
   ("attempt_count", .ofNat n.attemptCount),
   ("next_retry_at", Json.ofOption timeJson n.nextRetryAt),
   ("error_message", Json.ofOption .string n.errorMessage),
   ("created_at", timeJson n.createdAt),
   ("updated_at", timeJson n.updatedAt),
   ("queued_at", Json.ofOption timeJson n.queuedAt),
   ("sent_at", Json.ofOption timeJson n.sentAt),
   ("failed_at", Json.ofOption timeJson n.failedAt)]

def toJson (n : Notification) : Json := .object n.members

def idDecoder : Json.Decoder Uuid := Json.textOf Uuid.parse

def timeDecoder : Json.Decoder Instant := Json.textOf Rfc3339.parse

def channelDecoder : Json.Decoder Channel := Json.nameOf Channel.ofName?

def statusDecoder : Json.Decoder Status := Json.nameOf Status.ofName?

structure Draft where
  id : Option Uuid := none
  channel : Option Channel := none
  recipient : Option String := none
  payload : Option Json := none
  status : Option Status := none
  attemptCount : Option Nat := none
  nextRetryAt : Option (Option Instant) := none
  errorMessage : Option (Option String) := none
  createdAt : Option Instant := none
  updatedAt : Option Instant := none
  queuedAt : Option (Option Instant) := none
  sentAt : Option (Option Instant) := none
  failedAt : Option (Option Instant) := none
  version : Option Int := none

namespace Draft

def fields : List (Json.Field Draft) :=
  [.of "id" id (fun d v => { d with id := some v }) idDecoder false,
   .of "channel_type" channel (fun d v => { d with channel := some v }) channelDecoder false,
   .of "recipient" recipient (fun d v => { d with recipient := some v }) Json.text false,
   .of "payload" payload (fun d v => { d with payload := some v }) Json.value false,
   .of "status" status (fun d v => { d with status := some v }) statusDecoder false,
   .of "attempt_count" attemptCount (fun d v => { d with attemptCount := some v })
     (Json.naturalBelow attemptLimit) false,
   .of "next_retry_at" nextRetryAt (fun d v => { d with nextRetryAt := some v })
     (Json.optional timeDecoder) false,
   .of "error_message" errorMessage (fun d v => { d with errorMessage := some v })
     (Json.optional Json.text) false,
   .of "created_at" createdAt (fun d v => { d with createdAt := some v }) timeDecoder false,
   .of "updated_at" updatedAt (fun d v => { d with updatedAt := some v }) timeDecoder false,
   .of "queued_at" queuedAt (fun d v => { d with queuedAt := some v })
     (Json.optional timeDecoder) false,
   .of "sent_at" sentAt (fun d v => { d with sentAt := some v })
     (Json.optional timeDecoder) false,
   .of "failed_at" failedAt (fun d v => { d with failedAt := some v })
     (Json.optional timeDecoder) false,
   .of "version" version (fun d v => { d with version := some v })
     (Json.integerWithin (-Width.signedLimit64) (Width.signedLimit64 - 1)) true]

/-- The record, if nothing is missing that has to be there. -/
def finish (d : Draft) : Option Notification := do
  pure {
    id := ← d.id
    channel := ← d.channel
    recipient := ← d.recipient
    payload := ← d.payload
    status := ← d.status
    attemptCount := ← d.attemptCount
    nextRetryAt := d.nextRetryAt.join
    errorMessage := d.errorMessage.join
    createdAt := ← d.createdAt
    updatedAt := ← d.updatedAt
    queuedAt := d.queuedAt.join
    sentAt := d.sentAt.join
    failedAt := d.failedAt.join
    version := d.version.getD 0 }

end Draft

def decoder : Json.Decoder Notification := Json.record Draft.fields {} Draft.finish

end Notification

namespace Submission

structure Draft where
  channel : Option Channel := none
  recipient : Option String := none
  payload : Option Json := none

def Draft.fields : List (Json.Field Draft) :=
  [.of "channel_type" channel (fun d v => { d with channel := some v })
     Notification.channelDecoder false,
   .of "recipient" recipient (fun d v => { d with recipient := some v }) Json.text false,
   .of "payload" payload (fun d v => { d with payload := some v }) Json.value true]

def Draft.finish (d : Draft) : Option Submission := do
  pure { channel := ← d.channel, recipient := ← d.recipient, payload := d.payload.getD .null }

def decoder : Json.Decoder Submission := Json.record Draft.fields {} Draft.finish

def toJson (s : Submission) : Json :=
  .object [
    ("channel_type", .string s.channel.name),
    ("recipient", .string s.recipient),
    ("payload", s.payload)]

end Submission

end Courier
