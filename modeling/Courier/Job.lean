import Courier.Notification

/-!
Delivery jobs: entries of the delivery queue that ask for one attempt at one notification, and the
leases under which workers hold them. There is at most one live job for each attempt.
-/
namespace Courier

structure Job where
  notificationId : Uuid
  /-- The attempt count of the notification when the job was made. -/
  attempt : Nat
  enqueuedAt : Instant
  /-- Nobody may take the job before this instant. -/
  visibleAt : Instant
  deriving DecidableEq

/-- A job held by one worker until the lease runs out. -/
structure Lease where
  job : Job
  token : Uuid
  expiresAt : Instant
  deriving DecidableEq

namespace Job

abbrev Key := Uuid × Nat

def key (j : Job) : Key := (j.notificationId, j.attempt)

def immediate (id : Uuid) (attempt : Nat) (now : Instant) : Job := ⟨id, attempt, now, now⟩

def name (j : Job) : String := s!"{j.notificationId.render}:{j.attempt}"

def toJson (j : Job) : Json :=
  .object [
    ("notification_id", .string j.notificationId.render),
    ("attempt", .ofNat j.attempt),
    ("enqueued_at", Notification.timeJson j.enqueuedAt),
    ("visible_at", Notification.timeJson j.visibleAt)]

structure Draft where
  notificationId : Option Uuid := none
  attempt : Option Nat := none
  enqueuedAt : Option Instant := none
  visibleAt : Option Instant := none

def Draft.fields : List (Json.Field Draft) :=
  [.of "notification_id" notificationId (fun d v => { d with notificationId := some v })
     Notification.idDecoder false,
   .of "attempt" attempt (fun d v => { d with attempt := some v })
     (Json.naturalBelow Notification.attemptLimit) false,
   .of "enqueued_at" enqueuedAt (fun d v => { d with enqueuedAt := some v })
     Notification.timeDecoder false,
   .of "visible_at" visibleAt (fun d v => { d with visibleAt := some v })
     Notification.timeDecoder false]

def Draft.finish (d : Draft) : Option Job := do
  pure ⟨← d.notificationId, ← d.attempt, ← d.enqueuedAt, ← d.visibleAt⟩

def decoder : Json.Decoder Job := Json.record Draft.fields {} Draft.finish

def encode (j : Job) : String := j.toJson.render

def decode (s : String) : Except Json.Fault Job := Json.decode decoder s

end Job

namespace Lease

def toJson (l : Lease) : Json :=
  .object [
    ("job", l.job.toJson),
    ("lease_token", .string l.token.render),
    ("lease_expires_at", Notification.timeJson l.expiresAt)]

structure Draft where
  job : Option Job := none
  token : Option Uuid := none
  expiresAt : Option Instant := none

def Draft.fields : List (Json.Field Draft) :=
  [.of "job" job (fun d v => { d with job := some v }) Job.decoder false,
   .of "lease_token" token (fun d v => { d with token := some v }) Notification.idDecoder false,
   .of "lease_expires_at" expiresAt (fun d v => { d with expiresAt := some v })
     Notification.timeDecoder false]

def Draft.finish (d : Draft) : Option Lease := do
  pure ⟨← d.job, ← d.token, ← d.expiresAt⟩

def decoder : Json.Decoder Lease := Json.record Draft.fields {} Draft.finish

end Lease
end Courier
