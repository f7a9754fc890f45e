import Courier.Error
import Courier.Http.MediaType
import Courier.Json.Basic
import Courier.Text.Blank
import Courier.Text.Search

namespace Courier.Http

open Courier.Text

structure Request where
  method : String
  path : String
  /-- What follows the question mark, if there is one. -/
  query : Option String
  headers : List (String × String)
  body : String
  /-- The address at the other end of the connection. -/
  peer : Option String
  deriving DecidableEq

inductive Body where
  | empty
  | json (v : Json)
  /-- A text for people whose wording is not fixed. -/
  | plain

structure Response where
  status : Nat
  body : Body
  /-- Seconds after which to come again. -/
  retryAfter : Option Nat := none
  /-- Requests that are left before the limit. -/
  remaining : Option Nat := none
  allow : Option String := none

namespace Request

/-- The path of a target and what follows its question mark. What follows a number sign is not
sent. -/
def splitTarget (target : String) : String × Option String :=
  let sent := target.toList.takeWhile (· != '#')
  match cut? '?' sent with
  | some (path, query) => (String.ofList path, some (String.ofList query))
  | none => (String.ofList sent, none)

/-- Header names are compared without regard to case. -/
def isSameName (a b : String) : Bool := a.toList.map Char.toLower == b.toList.map Char.toLower

/-- The headers with others set; one that is there already gives way. -/
def setHeaders (own given : List (String × String)) : List (String × String) :=
  (own.filter fun (name, _) => !(given.any fun (k, _) => isSameName k name)) ++ given

def hostOfSocket (socket : String) : String :=
  match cutLast? ':' socket.toList with
  | some (host, _) => String.ofList (host.filter fun c => c != '[' && c != ']')
  | none => socket

def header? (r : Request) (name : String) : Option String :=
  (r.headers.find? fun (k, _) => isSameName k name).map Prod.snd

/-- Only visible ASCII characters, blanks and tabs can be read. -/
def isReadable (value : String) : Bool :=
  value.toList.all fun c => (32 ≤ c.toNat && c.toNat ≤ 126) || c == '\t'

def readable? (r : Request) (name : String) : Option String :=
  (r.header? name).filter isReadable

end Request

/-- What follows the word for bearer tokens in the value of an authorization header, without blanks
around it. -/
def bearerText? (value : String) : Option String :=
  if Request.isReadable value then
    (after? "Bearer ".toList value.toList).map fun rest => String.ofList (trim rest)
  else none

/-- The bearer token in the value of an authorization header, which is not empty. -/
def bearerToken? (value : String) : Option String := (bearerText? value).filter (· != "")

namespace Request

/-- The text after the word for bearer tokens, which may be empty. -/
def bearerText? (r : Request) : Option String := (r.header? "authorization").bind Http.bearerText?

def bearerToken? (r : Request) : Option String :=
  (r.header? "authorization").bind Http.bearerToken?

/-- The address of the client: the first one that it was forwarded for, or else the other end of the
connection. -/
def clientAddress (r : Request) : String :=
  let forwarded := (r.readable? "x-forwarded-for").bind fun value =>
    ((splitOn ',' value.toList).head?.map trim).filter fun hop => !hop.isEmpty
  match forwarded, r.peer with
  | some hop, _ => String.ofList hop
  | none, some peer => peer
  | none, none => "unknown"

/-- The content is declared to be JSON, or of a format built on JSON. -/
def declaresJson (r : Request) : Bool :=
  ((r.readable? "content-type").bind MediaType.parse?).any MediaType.isJson

end Request

namespace Response

def json (status : Nat) (v : Json) : Response := { status, body := .json v }

def refusal (status : Nat) : Response := { status, body := .plain }

def notFound : Response := { status := 404, body := .empty }

def methodNotAllowed : Response := { status := 405, body := .empty }

end Response
end Courier.Http

namespace Courier.Error

def httpStatus : Error → Nat
  | database _ | redis _ | queueUnavailable _ | storeUnavailable _ => 503
  | validation _ => 400
  | notFound _ => 404
  | invalidState _ | conflict _ => 409
  | auth _ => 401
  | forbidden _ => 403
  | rateLimited _ => 429
  | config _ | internal _ => 500

/-- Errors of unreachable services are reported with the name of their kind, others without. -/
def httpText (e : Error) : String := if e.isUnavailable then e.display else e.text

def toResponse (e : Error) : Http.Response :=
  match e with
  | rateLimited seconds =>
    { status := e.httpStatus
      body := .json (.object [("error", .string e.httpText), ("retry_after", .ofNat seconds)])
      retryAfter := some seconds }
  | _ => .json e.httpStatus (.object [("error", .string e.httpText)])

end Courier.Error
