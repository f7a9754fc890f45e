import Courier.Crypto.Hmac
import Courier.Error
import Courier.Json.Decoder
import Courier.Json.Printer
import Courier.Principal
import Courier.Text.Base64
import Courier.Time.Instant
import Courier.Width

/-!
Signed tokens: a header, claims and a signature over both, in base64 with points between them. A
token is accepted when its header names the one algorithm in use, its signature is that of the
shared secret, its claims have the right shape, it has not run out, and it is not meant for a
particular audience.
-/
namespace Courier.Auth

structure Claims where
  subject : String
  expires : Int
  issued : Int
  roles : List String
  deriving DecidableEq

inductive TokenError where
  | notThreeParts
  | base64
  | json
  | algorithm
  | signature
  | expirationMissing
  | expired
  | audience
  deriving DecidableEq

namespace TokenError

def display : TokenError → String
  | notThreeParts => "InvalidToken"
  | base64 => "Base64 error"
  | json => "JSON error"
  | algorithm => "InvalidAlgorithm"
  | signature => "InvalidSignature"
  | expirationMissing => "Missing required claim: exp"
  | expired => "ExpiredSignature"
  | audience => "InvalidAudience"

end TokenError

namespace Claims

def principal (c : Claims) : Principal := ⟨c.subject, c.roles⟩

def toJson (c : Claims) : Json :=
  .object [
    ("sub", .string c.subject),
    ("exp", .integer c.expires),
    ("iat", .integer c.issued),
    ("roles", .array (c.roles.map .string))]

structure Draft where
  subject : Option String := none
  expires : Option Int := none
  issued : Option Int := none
  roles : Option (List String) := none

def signed64 : Json.Decoder Int :=
  Json.integerWithin (-Width.signedLimit64) (Width.signedLimit64 - 1)

def Draft.fields : List (Json.Field Draft) :=
  [.of "sub" subject (fun d v => { d with subject := some v }) Json.text false,
   .of "exp" expires (fun d v => { d with expires := some v }) signed64 false,
   .of "iat" issued (fun d v => { d with issued := some v }) signed64 false,
   .of "roles" roles (fun d v => { d with roles := some v }) (Json.listOf Json.text) true]

def Draft.finish (d : Draft) : Option Claims := do
  pure {
    subject := ← d.subject
    expires := ← d.expires
    issued := ← d.issued
    roles := d.roles.getD [] }

def decoder : Json.Decoder Claims := Json.record Draft.fields {} Draft.finish

end Claims

/-- The registered claims that are looked at besides, and whether an audience is among them. -/
structure Registered where
  seen : List String := []
  audience : Bool := false

namespace Registered

def isAudience : Json → Bool
  | .string _ => true
  | .array items => items.all fun item =>
    match item with
    | .string _ => true
    | _ => false
  | _ => false

/-- A time may be anything but an array or an object with something in it. -/
def time (limits : Json.Limits) (cs : List Char) : Except Json.Fault (Json.Found Unit) := do
  let (v, rest) ← Json.value limits cs
  match v with
  | .array (_ :: _) => .error .unsuitable
  | .object (_ :: _) => .error .unsuitable
  | _ => .ok ((), rest)

/-- Each of these claims may come once. -/
def member (limits : Json.Limits) (key : String) (r : Registered) :
    Except Json.Fault (List Char → Except Json.Fault (Json.Found Registered)) :=
  let next := { r with seen := key :: r.seen }
  if r.seen.contains key then .error .unsuitable
  else if key = "aud" then
    .ok fun cs => (Json.value limits cs).map fun (v, rest) =>
      ({ next with audience := isAudience v }, rest)
  else if key = "iss" then .ok fun cs => (Json.value limits cs).map fun (_, rest) => (next, rest)
  else if key = "nbf" then .ok fun cs => (time limits cs).map fun (_, rest) => (next, rest)
  else .ok fun cs => (Json.skip limits cs).map fun (_, rest) => (r, rest)

/-- Claims in array form have no place for these. -/
def decoder : Json.Decoder Registered := fun limits cs =>
  match Json.skipSpace cs with
  | '\x7b' :: r => Json.membersFrom Json.stringToken (member limits) limits.steps true {} r
  | _ => .error .unsuitable

end Registered

def algorithms : List String :=
  ["HS256", "HS384", "HS512", "ES256", "ES384", "RS256", "RS384", "RS512", "PS256", "PS384",
   "PS512", "EdDSA"]

def tokenAlgorithm : String := "HS256"

structure HeaderDraft where
  seen : List String := []
  algorithm : Option String := none

namespace HeaderDraft

/-- A field that is read and not looked at. -/
def optionalField {α : Type} (name : String) (decoder : Json.Decoder α) :
    Json.Field HeaderDraft :=
  { name
    isSet := fun d => d.seen.contains name
    read := fun d limits cs =>
      (Json.optional decoder limits cs).map fun (_, rest) =>
        ({ d with seen := name :: d.seen }, rest)
    mayEnd := false }

/-- The fields of a header. A key in the header itself is never accepted. -/
def fields : List (Json.Field HeaderDraft) :=
  [optionalField "typ" Json.text,
   .of "alg" algorithm (fun d v => { d with algorithm := some v })
     (Json.nameOf fun s => algorithms.find? (· == s)) false,
   optionalField "cty" Json.text,
   optionalField "jku" Json.text,
   optionalField "jwk" (fun _ _ => (.error .unsuitable : Except Json.Fault (Json.Found Unit))),
   optionalField "kid" Json.text,
   optionalField "x5u" Json.text,
   optionalField "x5c" (Json.listOf Json.text),
   optionalField "x5t" Json.text,
   optionalField "x5t#S256" Json.text]

def decoder : Json.Decoder String := Json.record fields {} algorithm

end HeaderDraft

def bytesOf (s : String) : List UInt8 := s.toUTF8.toList

def signature (secret message : String) : String :=
  String.ofList (Base64.encode (Hmac.sign (bytesOf secret) (bytesOf message)))

def header : String :=
  let fields : Json := .object [("typ", .string "JWT"), ("alg", .string tokenAlgorithm)]
  String.ofList (Base64.encode (bytesOf fields.render))

def encode (claims : Claims) (secret : String) : String :=
  let body := String.ofList (Base64.encode (bytesOf claims.toJson.render))
  let message := header ++ "." ++ body
  message ++ "." ++ signature secret message

/-- A token for a principal that is good for some hours from `now` on; nothing if it would run out
beyond all dates. -/
def issue? (p : Principal) (now : Int) (hours : Int) (secret : String) : Option String :=
  let expires := now + 3600 * hours
  if Instant.firstSecond ≤ expires ∧ expires ≤ Instant.lastSecond then
    some (encode ⟨p.subject, expires, now, p.roles⟩ secret)
  else none

/-- The JSON text in a part of a token, decoded. -/
def readPart {α : Type} (part : List Char) (decoder : Json.Decoder α) : Except TokenError α :=
  match Base64.decode? part with
  | none => .error .base64
  | some bytes =>
    match String.fromUTF8? ⟨bytes.toArray⟩ with
    | none => .error .json
    | some s =>
      match Json.decode decoder s with
      | .ok a => .ok a
      | .error _ => .error .json

/-- A token is good for this many seconds after it has run out. -/
def leeway : Int := 60

/-- The claims of a token that is acceptable at `now`, in seconds since 1970. -/
def decode (token secret : String) (now : Nat) : Except TokenError Claims := do
  match Text.cutLast? '.' token.toList with
  | none => .error .notThreeParts
  | some (message, given) =>
    match Text.cutLast? '.' message with
    | none => .error .notThreeParts
    | some (head, body) =>
      let algorithm ← readPart head HeaderDraft.decoder
      if algorithm ≠ tokenAlgorithm then .error .algorithm
      else if signature secret (String.ofList message) ≠ String.ofList given then .error .signature
      else
        let claims ← readPart body Claims.decoder
        let registered ← readPart body Registered.decoder
        if claims.expires < 0 then .error .expirationMissing
        else if claims.expires < now - leeway then .error .expired
        else if registered.audience then .error .audience
        else .ok claims

def decodeError (e : TokenError) : Error := .auth s!"Invalid token: {e.display}"

end Courier.Auth
