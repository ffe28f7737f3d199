import Larder.Endpoint.Basic
import Larder.Yaml.Core
import Larder.Yaml.Node

/-!
# Configuration

What can be configured comes from a YAML file with three sections, each of which may be left out. A
configuration whose server address is no endpoint is not accepted. Without a file everything is as
usual.
-/

namespace Larder

namespace Configuration

/-- Where the service is. -/
structure Server where
  /-- Its address, as it was given. -/
  url : String := "http://localhost:8978/api/gql"
  /-- How many seconds a request may take. -/
  timeoutSecs : Nat := 30
deriving DecidableEq, Repr

/-- How long entries are kept. -/
structure Keeping where
  /-- How many seconds an entry stays when nobody uses it. -/
  ttlSecs : Nat := 600
  /-- How many seconds pass between two purges. -/
  purgeIntervalSecs : Nat := 60
deriving DecidableEq, Repr

/-- What is logged. -/
structure Logging where
  /-- Which messages. -/
  level : String := "info"
  /-- Whether they also go to a file. -/
  file : Bool := false
deriving DecidableEq, Repr

end Configuration

/-- What can be configured. -/
structure Configuration where
  /-- Where the service is. -/
  server : Configuration.Server := {}
  /-- How long entries are kept. -/
  cache : Configuration.Keeping := {}
  /-- What is logged. -/
  log : Configuration.Logging := {}
deriving DecidableEq, Repr

namespace Configuration

/-! ## What follows from it -/

/-- The endpoint of the service. -/
def endpoint (c : Configuration) : Except Endpoint.Rejection Endpoint := Endpoint.parse c.server.url

/-- The longest duration that can be counted, in milliseconds. -/
def longestMillis : Nat := Nat.pow 2 63 - 1

/-- How many milliseconds an unused entry stays; nothing if that cannot be counted. -/
def ttlMillis? (c : Configuration) : Option Nat :=
  let seconds := min c.cache.ttlSecs (Nat.pow 2 63 - 1)
  if seconds ≤ longestMillis / 1000 then some (seconds * 1000) else none

/-- How many seconds pass between two purges: at least one. -/
def purgeInterval (c : Configuration) : Nat := max c.cache.purgeIntervalSecs 1

/-! ## Reading it from YAML -/

open Yaml

/-- The tags that a block may carry to be read as a number or a truth value. -/
def coreTag (name : String) : String := "tag:yaml.org,2002:" ++ name

/-- The text of a scalar that may stand for a value of a type: it is plain, or a literal block with
the tag of the type. -/
def untagged? (type : String) : Node → Option String
  | .scalar .plain _ text => some text
  | .scalar .literal tag text => if tag = some (coreTag type) then some text else none
  | _ => none

/-- Any scalar, as a text. -/
def text? : Node → Option String
  | .scalar _ _ text => some text
  | _ => none

/-- A whole number of 64 bits without a sign. -/
def count? (node : Node) : Option Nat :=
  ((untagged? "int" node).bind natural?).bind fun n => if n < Nat.pow 2 64 then some n else none

/-- A truth value. -/
def flag? (node : Node) : Option Bool := (untagged? "bool" node).bind truth?

/-- The entries of a mapping under the names that its keys, all of them scalars, write. -/
def fields? (d : Document) (node : Node) : Option (List (String × Node)) :=
  match d.follow node with
  | .mapping entries => entries.mapM fun e => (text? (d.follow e.1)).map fun k => (k, d.follow e.2)
  | _ => none

/-- A field that may be left out but not be given twice. -/
def field? {α : Type} (fields : List (String × Node)) (name : String) (read : Node → Option α)
    (fallback : Option α) : Option α :=
  match fields.filter fun f => f.1 = name with
  | [] => fallback
  | [f] => read f.2
  | _ => none

/-- The section on the service; a section that is there has to give the address. -/
def server? (d : Document) (node : Node) : Option Server := do
  let fields ← fields? d node
  return {
    url := ← field? fields "url" text? none
    timeoutSecs := ← field? fields "timeout_secs" count? (some 30) }

/-- The section on the entries. -/
def keeping? (d : Document) (node : Node) : Option Keeping := do
  let fields ← fields? d node
  return {
    ttlSecs := ← field? fields "ttl_secs" count? (some 600)
    purgeIntervalSecs := ← field? fields "purge_interval_secs" count? (some 60) }

/-- The section on messages. -/
def logging? (d : Document) (node : Node) : Option Logging := do
  let fields ← fields? d node
  return {
    level := ← field? fields "level" text? (some "info")
    file := ← field? fields "file" flag? (some false) }

/-- The configuration in a document. Names that mean nothing are passed over. -/
def ofDocument? (d : Document) : Option Configuration := do
  let fields ← fields? d d.root
  return {
    server := ← field? fields "server" (server? d) (some {})
    cache := ← field? fields "cache" (keeping? d) (some {})
    log := ← field? fields "log" (logging? d) (some {}) }

/-- The configuration in a YAML text, which may hold no document but not several. -/
def ofYaml? (s : String) : Option Configuration :=
  match documentsIn? s with
  | some [] => some {}
  | some [d] => ofDocument? d
  | _ => none

/-! ## Finding it -/

/-- What is wrong with the configuration. -/
inductive Trouble where
  /-- There is no such file. -/
  | notFound (path : String)
  /-- The file holds no text. -/
  | unreadable (path : String)
  /-- The text is not what it should be. -/
  | notYaml (path : String)
  /-- The address of the server is no endpoint. -/
  | badServer (path url : String) (rejection : Endpoint.Rejection)

/-- The wording of a trouble. What the file system or the YAML reader have to say is left out. -/
def Trouble.message : Trouble → String
  | .notFound path => "Config file not found: " ++ path
  | .unreadable path => "Failed to read config file " ++ path
  | .notYaml path => "Failed to parse config file " ++ path
  | .badServer path url rejection =>
    "Failed to parse config file " ++ path ++ ": " ++ rejection.message url

/-- What is found under a path. -/
inductive Found where
  /-- Nothing. -/
  | nothing
  /-- A file with a text. -/
  | text (contents : String)
  /-- Something that is no file with a text. -/
  | other

/-- The configuration in a file. -/
def ofFile (path : String) : Found → Except Trouble Configuration
  | .nothing => .error (.notFound path)
  | .other => .error (.unreadable path)
  | .text contents =>
    match ofYaml? contents with
    | none => .error (.notYaml path)
    | some c =>
      match c.endpoint with
      | .error rejection => .error (.badServer path c.server.url rejection)
      | .ok _ => .ok c

/-- The files that are looked for when none is named: one here, and one in the directory for
configurations. -/
def usualPaths (directory : Option String) : List String :=
  "rescache.yaml" :: (directory.map fun d => d ++ "/rescache/config.yaml").toList

/-- The configuration in the first file that is there, or else the usual one. -/
def firstOf {m : Type → Type} [Monad m] (look : String → m Found) :
    List String → m (Except Trouble Configuration)
  | [] => return .ok {}
  | path :: rest => do
    match ← look path with
    | .nothing => firstOf look rest
    | found => return ofFile path found

/-- Find and read the configuration. A file that is named has to be there. -/
def load {m : Type → Type} [Monad m] (look : String → m Found) (named directory : Option String) :
    m (Except Trouble Configuration) :=
  match named with
  | some path => do return ofFile path (← look path)
  | none => firstOf look (usualPaths directory)

end Configuration

end Larder
