import Courier.Http.Query
import Courier.Text.Percent
import Courier.Text.Search
import Courier.Width

namespace Courier.Remote

open Text

/-- The parts of an address, with percent signs still in them. A host is never empty. -/
structure Address where
  scheme : String
  user : List Char := []
  password : Option (List Char) := none
  host : Option (List Char) := none
  port : Option Nat := none
  path : List Char := []
  query : String := ""

namespace Address

def isSchemeChar (c : Char) : Bool := c.isAlphanum || c == '+' || c == '-' || c == '.'

/-- The scheme in lower case and what follows its colon. -/
def scheme? (cs : List Char) : Option (String × List Char) := do
  let (scheme, rest) ← cut? ':' cs
  if (scheme.head?.any Char.isAlpha) ∧ scheme.all isSchemeChar then
    pure (String.ofList (scheme.map Char.toLower), rest)
  else none

/-- Schemes under which an address has to have a host. -/
def hostedSchemes : List String := ["http", "https", "ws", "wss", "ftp"]

def hostBreakers : List Char :=
  [Char.ofNat 0, '\t', '\n', '\r', ' ', '#', '/', ':', '<', '>', '?', '@', '[', '\\', ']', '^', '|']

/-- A number of at most three digits below 256, without zeros in front. -/
def isOctet (cs : List Char) : Bool :=
  (cs.head? != some '0' || cs.length == 1) && cs.length ≤ 3
    && ((decimalNumber? cs).any (· < 256)) && !cs.isEmpty

/-- Four numbers with points between them. -/
def isInternet4 (cs : List Char) : Bool :=
  let parts := splitOn '.' cs
  parts.length == 4 && parts.all isOctet

def isGroup (cs : List Char) : Bool := !cs.isEmpty && cs.length ≤ 4 && (hexNumber? cs).isSome

/-- The number of groups of 16 bits in part of a long internet address, which may end with a short
one. -/
def groupCount? (cs : List Char) : Option Nat :=
  if cs.isEmpty then some 0
  else
    let parts := splitOn ':' cs
    let last := parts.getLastD []
    if parts.all isGroup then some parts.length
    else if parts.dropLast.all isGroup ∧ isInternet4 last then some (parts.length + 1)
    else none

def cutColons? : List Char → Option (List Char × List Char)
  | ':' :: ':' :: rest => some ([], rest)
  | c :: rest => (cutColons? rest).map fun (before, after) => (c :: before, after)
  | [] => none

/-- Eight groups, of which a pair of colons may stand for one or more. -/
def isInternet6 (cs : List Char) : Bool :=
  match cutColons? cs with
  | none => groupCount? cs == some 8
  | some (before, after) =>
    match groupCount? before, groupCount? after with
    | some m, some n => m + n ≤ 7 && !(before.contains '.')
    | _, _ => false

def isInternetAddress (cs : List Char) : Bool := isInternet4 cs || isInternet6 cs

/-- A host and what follows it. Colons can stand only in brackets. -/
def host? (cs : List Char) : Option (List Char × List Char) :=
  match cs with
  | '[' :: r => do
    let (inner, rest) ← cut? ']' r
    if isInternet6 inner then pure (inner, rest) else none
  | _ =>
    let host := cs.takeWhile (· != ':')
    if host.any hostBreakers.contains then none else some (host, cs.drop host.length)

def port? (cs : List Char) : Option (Option Nat) :=
  match cs with
  | [] => some none
  | ':' :: digits =>
    if digits.isEmpty then some none
    else (decimalNumber? digits).bind fun n => if n < Width.limit16 then some (some n) else none
  | _ => none

/-- The part of an address that names the server. An empty host has neither a user nor a port. -/
def authority? (a : Address) (cs : List Char) : Option Address := do
  let (user?, place) :=
    match cutLast? '@' cs with
    | none => (none, cs)
    | some (user, place) => (some user, place)
  let (host, rest) ← host? place
  if host.isEmpty ∧ (user?.isSome ∨ !rest.isEmpty ∨ hostedSchemes.contains a.scheme) then none
  else
    let port ← port? rest
    let (user, password) :=
      match cut? ':' (user?.getD []) with
      | none => (user?.getD [], none)
      | some (user, password) => (user, some password)
    pure { a with user, password, port, host := if host.isEmpty then none else some host }

/-- Controls and blanks are taken off both ends, and tabs and line breaks out of the middle. -/
def cleaned (cs : List Char) : List Char :=
  let isEdge (c : Char) := c.toNat ≤ 32
  let inner := ((cs.dropWhile isEdge).reverse.dropWhile isEdge).reverse
  inner.filter fun c => c != '\t' && c != '\n' && c != '\r'

/-- The address in a text; what follows a number sign has no part in it. -/
def parse? (s : String) : Option Address := do
  let (scheme, rest) ← scheme? (cleaned s.toList)
  let rest := rest.takeWhile (· != '#')
  let before := rest.takeWhile (· != '?')
  let query := String.ofList (rest.drop (before.length + 1))
  match after? ['/', '/'] before with
  | some behind =>
    let authority := behind.takeWhile (· != '/')
    ({ scheme, query, path := behind.drop authority.length } : Address).authority? authority
  | none => if hostedSchemes.contains scheme then none else pure { scheme, query, path := before }

/-- A part that makes text once its percent signs are resolved. -/
def isText (cs : List Char) : Bool := (ofUtf8? (percentDecode cs)).isSome

def trimmedPath (a : Address) : List Char :=
  ((a.path.dropWhile (· == '/')).reverse.dropWhile (· == '/')).reverse

/-- A database is chosen by a number. -/
def isDatabaseNumber (cs : List Char) : Bool :=
  (integer? cs).any Width.isSigned64

/-- The value of the last parameter of that name. -/
def param? (a : Address) (name : String) : Option String :=
  (Http.Query.pairs a.query).reverse.lookup name

def protocols : List String := ["2", "resp2", "3", "resp3"]

/-- An address that a data server on the network can have. -/
def isDataServer (a : Address) : Bool :=
  a.scheme == "redis" && a.host.isSome
    && (a.trimmedPath.isEmpty || isDatabaseNumber a.trimmedPath)
    && isText a.user && a.password.all isText
    && (a.param? "protocol").all protocols.contains

/-- An address that a data server on the same machine can have: the path of its socket. -/
def isDataSocket (a : Address) : Bool :=
  (a.scheme == "unix" || a.scheme == "redis+unix")
    && (a.host.isNone || a.host == some "localhost".toList) && a.path.head? == some '/'
    && ((a.param? "db").map String.toList).all isDatabaseNumber
    && (a.param? "protocol").all protocols.contains

/-- How far connections to a database are secured, in any case. -/
def securityModes : List String :=
  ["disable", "allow", "prefer", "require", "verify-ca", "verify-full"]

def isDatabaseParam (name value : String) : Bool :=
  if name = "sslmode" ∨ name = "ssl-mode" then securityModes.contains (value.map Char.toLower)
  else if name = "statement-cache-capacity" then (naturalBelow? Width.limit64 value.toList).isSome
  else if name = "hostaddr" then isInternetAddress value.toList
  else if name = "port" then (naturalBelow? Width.limit16 value.toList).isSome
  else true

def isDatabase (a : Address) : Bool :=
  isText a.user && a.password.all isText && isText (a.path.dropWhile (· == '/'))
    && (Http.Query.pairs a.query).all fun (name, value) => isDatabaseParam name value

def acceptsDataServer (s : String) : Bool :=
  (parse? s).any fun a => a.isDataServer || a.isDataSocket

def acceptsDatabase (s : String) : Bool := (parse? s).any isDatabase

end Address
end Courier.Remote
