import Larder.Endpoint.Host

/-!
# Endpoints

An endpoint is the address of the service, with the scheme `http` or `https`. Reading an address
brings it into its normal form: scheme and domain in small letters, no port that the scheme implies,
no dot segments in the path, and everything that may not stand for itself percent-encoded. The rules
are those by which browsers read addresses.

An address with another scheme is no endpoint; whether it is malformed is told first.
-/

namespace Larder

/-- The address of a service. -/
structure Endpoint where
  /-- Whether the scheme is `https`. -/
  secure : Bool
  /-- The name of the user, percent-encoded; empty if there is none. -/
  user : String
  /-- The password, percent-encoded; empty if there is none. -/
  password : String
  /-- The host. -/
  host : Endpoint.Host
  /-- The port, unless it is the one that the scheme implies. -/
  port : Option Nat
  /-- The segments of the path, percent-encoded; there is at least one. -/
  path : List String
  /-- The query, percent-encoded. -/
  query : Option String
  /-- The fragment, percent-encoded. -/
  fragment : Option String
deriving DecidableEq, Repr

namespace Endpoint

/-- Why an address is no endpoint. -/
inductive Rejection where
  /-- It is malformed. -/
  | malformed (fault : Fault)
  /-- It has another scheme. -/
  | unsupported (scheme : String)

/-- The wording of a rejection of an address. -/
def Rejection.message (address : String) : Rejection → String
  | .malformed fault => "Invalid server url " ++ address ++ ": " ++ fault.message
  | .unsupported scheme => "Unsupported scheme " ++ scheme ++ " in server url"

/-! ## Text -/

/-- The name of the scheme. -/
def scheme (e : Endpoint) : String := if e.secure then "https" else "http"

/-- The path as a text. -/
def pathText (e : Endpoint) : String := String.join (e.path.map fun s => "/" ++ s)

/-- The query with its question mark. -/
def queryText (e : Endpoint) : String :=
  match e.query with
  | some q => "?" ++ q
  | none => ""

/-- What is asked for on the host: path and query. -/
def target (e : Endpoint) : String := e.pathText ++ e.queryText

/-- User and password in front of the host. -/
def userText (e : Endpoint) : String :=
  if e.user.isEmpty && e.password.isEmpty then ""
  else e.user ++ (if e.password.isEmpty then "" else ":" ++ e.password) ++ "@"

/-- The port with its colon. -/
def portText (e : Endpoint) : String :=
  match e.port with
  | some p => ":" ++ toString p
  | none => ""

/-- The address in its normal form. -/
def text (e : Endpoint) : String :=
  e.scheme ++ "://" ++ e.userText ++ e.host.text ++ e.portText ++ e.target
    ++ match e.fragment with
      | some f => "#" ++ f
      | none => ""

/-! ## The parts of an address -/

/-- Without control characters and blanks around it. -/
def stripped (cs : List Char) : List Char :=
  let outer (c : Char) : Bool := c.toNat ≤ 0x20
  ((cs.dropWhile outer).reverse.dropWhile outer).reverse

/-- Without tabs and line breaks. -/
def joined (cs : List Char) : List Char := cs.filter fun c => !(['\t', '\n', '\r'].contains c)

/-- The scheme in small letters, and what is behind its colon. -/
def splitScheme? (cs : List Char) : Option (String × List Char) :=
  let inScheme (c : Char) : Bool := c.isAlphanum || ['+', '-', '.'].contains c
  match cs with
  | [] => none
  | c :: _ =>
    if !c.isAlpha then none
    else match cs.span inScheme with
      | (name, ':' :: rest) => some (String.ofList (name.map Char.toLower), rest)
      | _ => none

/-- The schemes of the web. -/
def webSchemes : List String := ["http", "https", "ws", "wss", "ftp"]

/-- Whether a character ends the authority. A backslash counts as a slash in the schemes of the
web. -/
def endsAuthority (web : Bool) (c : Char) : Bool :=
  ['/', '?', '#'].contains c || (web && c = '\\')

/-- User, password, host and port. -/
structure Authority where
  /-- The name of the user, percent-encoded. -/
  user : List Char
  /-- The password, percent-encoded. -/
  password : List Char
  /-- The host. -/
  host : Host
  /-- The port. -/
  port : Option Nat

/-- What is before and behind the last of some characters, if there is one. -/
def splitAtLast (c : Char) (cs : List Char) : Option (List Char × List Char) :=
  match cs.reverse.span fun d => !(d = c) with
  | (behind, _ :: before) => some (before.reverse, behind.reverse)
  | (_, []) => none

/-- The host and what is behind it: it ends at a colon outside square brackets. -/
def spanHost : Bool → List Char → List Char × List Char
  | _, [] => ([], [])
  | inside, c :: rest =>
    if c = ':' ∧ !inside then ([], c :: rest)
    else
      let inside := if c = '[' then true else if c = ']' then false else inside
      let (host, behind) := spanHost inside rest
      (c :: host, behind)

/-- A port: nothing if there are no digits. -/
def port? (cs : List Char) : Except Fault (Option Nat) :=
  let ds := cs.takeWhile fun c => !(c = '\\')
  if !ds.all Char.isDigit then .error .invalidPort
  else
    let n := ds.foldl (fun n d => n * 10 + (d.toNat - '0'.toNat)) 0
    if n > 65535 then .error .invalidPort
    else .ok (if ds.isEmpty then none else some n)

/-- The authority in a text. `more` says whether anything follows it. -/
def Authority.parse (web more : Bool) (cs : List Char) : Except Fault Authority := do
  let (user, location) := match splitAtLast '@' cs with
    | some (user, location) => (some user, location)
    | none => (none, cs)
  if user = some [] ∧ location.isEmpty ∧ more then throw .emptyHost
  let (name, secret) := (user.getD []).span fun c => !(c = ':')
  let name := encode escapedInUser name
  let secret := encode escapedInUser (secret.drop 1)
  let (hostPart, portPart) := spanHost false location
  if web ∧ hostPart.isEmpty then throw .emptyHost
  let host ← if web then Host.parse hostPart else Host.parseOpaque hostPart
  let bare := hostPart.isEmpty
  if bare ∧ !portPart.isEmpty then throw .emptyHost
  let port ← port? (portPart.drop 1)
  if bare ∧ !(name.isEmpty && secret.isEmpty) then throw .emptyHost
  return ⟨name, secret, host, port⟩

/-! ## Paths -/

/-- Whether a segment stands for the directory itself. -/
def isDot (segment : List Char) : Bool :=
  [".", "%2e"].contains (String.ofList (segment.map Char.toLower))

/-- Whether a segment stands for the directory above. -/
def isDoubleDot (segment : List Char) : Bool :=
  ["..", ".%2e", "%2e.", "%2e%2e"].contains (String.ofList (segment.map Char.toLower))

/-- The segments of a path with its dot segments resolved; `done` is what precedes them, last
first. -/
def resolveDots (done : List (List Char)) : List (List Char) → List (List Char)
  | [] => done.reverse
  | [s] =>
    (if isDoubleDot s then [] :: done.drop 1
      else if isDot s then [] :: done
      else s :: done).reverse
  | s :: t :: rest =>
    if isDoubleDot s then resolveDots (done.drop 1) (t :: rest)
    else if isDot s then resolveDots done (t :: rest)
    else resolveDots (s :: done) (t :: rest)

/-- The segments of a path that is given without its first slash. -/
def segments (cs : List Char) : List String :=
  let parts := (cs.map fun c => if c = '\\' then '/' else c).splitOn '/'
  (resolveDots [] (parts.map (encode escapedInPath))).map String.ofList

/-! ## Reading -/

/-- Whether a text is a drive letter of a local file. -/
def isDriveLetter : List Char → Bool
  | [c, d] => c.isAlpha && (d = ':' || d = '|')
  | _ => false

/-- Whether the rest of an address of a local file is malformed. -/
def fileFault? (cs : List Char) : Option Fault :=
  let isSlash (c : Char) : Bool := c = '/' || c = '\\'
  match cs with
  | a :: b :: rest =>
    if isSlash a && isSlash b then
      let host := rest.takeWhile fun c => !endsAuthority true c
      if host.isEmpty ∨ isDriveLetter host then none
      else match Host.parse host with
        | .error fault => some fault
        | .ok _ => none
    else none
  | _ => none

/-- Whether the rest of an address with a scheme of no account is malformed. -/
def otherFault? (cs : List Char) : Option Fault :=
  match cs with
  | '/' :: '/' :: rest =>
    let (authority, behind) := rest.span fun c => !endsAuthority false c
    match Authority.parse false (!behind.isEmpty) authority with
    | .error fault => some fault
    | .ok _ => none
  | _ => none

/-- The port that a scheme implies. -/
def impliedPort (scheme : String) : Nat :=
  if scheme = "https" ∨ scheme = "wss" then 443
  else if scheme = "ftp" then 21
  else 80

/-- The rest of an address with a scheme of the web. -/
def parseRest (scheme : String) (cs : List Char) : Except Fault Endpoint := do
  let cs := cs.dropWhile fun c => c = '/' || c = '\\'
  let (authority, behind) := cs.span fun c => !endsAuthority true c
  let a ← Authority.parse true (!behind.isEmpty) authority
  let (path, behind) := behind.span fun c => !(['?', '#'].contains c)
  let (query, behind) := match behind with
    | '?' :: rest =>
      let (q, behind) := rest.span fun c => !(c = '#')
      (some q, behind)
    | rest => (none, rest)
  let fragment := match behind with
    | '#' :: rest => some rest
    | _ => none
  return {
    secure := scheme = "https"
    user := String.ofList a.user
    password := String.ofList a.password
    host := a.host
    port := if a.port = some (impliedPort scheme) then none else a.port
    path := segments (path.drop 1)
    query := query.map fun q => String.ofList (encode escapedInQuery q)
    fragment := fragment.map fun f => String.ofList (encode escapedInFragment f) }

/-- The endpoint an address names. -/
def parse (s : String) : Except Rejection Endpoint :=
  match splitScheme? (joined (stripped s.toList)) with
  | none => .error (.malformed .relative)
  | some (scheme, rest) =>
    if webSchemes.contains scheme then
      match parseRest scheme rest with
      | .error fault => .error (.malformed fault)
      | .ok e =>
        if scheme = "http" ∨ scheme = "https" then .ok e else .error (.unsupported scheme)
    else
      match (if scheme = "file" then fileFault? rest else otherFault? rest) with
      | some fault => .error (.malformed fault)
      | none => .error (.unsupported scheme)

end Endpoint

end Larder
