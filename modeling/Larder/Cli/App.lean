import Larder.Api.Http
import Larder.Cli.Command
import Larder.Configuration
import Larder.World.Action
import Larder.Yaml.Writer

/-!
# The application

The application holds three resources: the teams, the session, and the settings, which are kept in
step with the session. A command loads what it needs and yields a value, which is written as YAML, or
the message of an error.

How the world goes on while a command waits is not decided here: `drive` lets tasks take their turns
and sees to it that requests are answered, until nothing is left to wait for.
-/

namespace Larder.Cli

/-- The names of the resources. -/
def teamsName : String := "teams"

/-- The name of the session. -/
def sessionName : String := "session"

/-- The name of the settings. -/
def settingsName : String := "server-settings"

/-- The resources with everything that runs beside them. The purge of the teams recurs in milliseconds
of the given interval. -/
def resources (clock : Instant) (service : World.Service) (interval : Nat) (ttl : Int) : World :=
  let w : World := { clock := clock, service := service }
  let w := ((w.add teamsName World.teams).add sessionName World.session).add settingsName
    World.settings
  (w.syncTo 2 1).purgeRecurrently 0 interval ttl

/-- Why the application did not start. -/
inductive StartTrouble where
  /-- The address of the server is no endpoint. -/
  | badServer (url : String) (rejection : Endpoint.Rejection)
  /-- A duration cannot be counted. -/
  | brokenDown

/-- The configuration as the command line changes it. -/
def override (c : Configuration) (url : Option String) : Configuration :=
  match url with
  | some u => { c with server := { c.server with url := u } }
  | none => c

/-- The application, ready for a command: its endpoint and its resources. -/
structure App where
  /-- Where requests go. -/
  endpoint : Endpoint
  /-- The resources. -/
  world : World

/-- Start the application. -/
def App.start (c : Configuration) (clock : Instant) (service : World.Service) :
    Except StartTrouble App :=
  match c.endpoint with
  | .error rejection => .error (.badServer c.server.url rejection)
  | .ok endpoint =>
    match c.ttlMillis? with
    | none => .error .brokenDown
    | some ttl => .ok ⟨endpoint, resources clock service (c.purgeInterval * 1000) ttl⟩

/-! ## Commands that end -/

section

variable {m : Type → Type} [Monad m] (drive : World → m World)

/-- Do something and wait until its handle comes to an end. -/
def await (w : World) (resource : String) (action : World.ResourceAction) :
    m (World × Option World.HandleResult) := do
  match w.act (.onResource (some resource) action) with
  | (w, .handle h) =>
    let w ← drive w
    return (w, (w.finished.find? fun f => f.1 = h).map Prod.snd)
  | (w, _) => return (w, none)

/-- Load a key and wait for it. -/
def loaded (w : World) (resource : String) (key : Key String) (inc : Includes) :
    m (World × Except String Unit) := do
  let (w, result) ← await drive w resource (.load key inc false)
  return (w, match result with
    | some (.load (.error f)) => .error f.message
    | _ => .ok ())

/-- Run an operation on teams. -/
def operated (w : World) (call : Teams.Call) : m (World × Except String Teams.Yield) := do
  let (w, result) ← await drive w teamsName (.operate call)
  return (w, match result with
    | some (.operation (.ok y)) => .ok y
    | some (.operation (.error t)) => .error t.message
    | _ => .ok .done)

/-- The groups of fields a command asks for. -/
def includesOf (withMeta : Bool) : Includes :=
  if withMeta then .ofList [Teams.includeMetaParameters] else .none

/-- The cached teams of a key. -/
def cachedTeams (w : World) (key : Key String) : List Team :=
  match w.holding? 0 with
  | some (.teams s) => s.resource.cache.getMany key
  | _ => []

/-- The cached settings. -/
def cachedSettings (w : World) : Option (Resource Sole Api.ProductSettings) :=
  match w.holding? 2 with
  | some (.settings s) => some s.resource
  | _ => none

/-- The cached session. -/
def cachedSession (w : World) : Option Api.SessionInfo :=
  match w.holding? 1 with
  | some (.session s) => s.resource.cache.data.get? .only
  | _ => none

/-- A user of a team as it is shown. -/
def userJson (u : Api.GrantedUser) : Json :=
  .obj [("user_id", .str u.userId), ("team_role", .ofString? u.teamRole)]

/-- What an operation yields, as it is shown. -/
def yieldJson : Teams.Yield → Json
  | .team t => t.encode
  | .ids ids => .strings ids
  | .users users => .arr (users.map userJson)
  | .grants grants => .arr (grants.map Api.ConnectionGrant.encode)
  | .done => .null

/-- Show some teams once their key is loaded. An alias for a permission is resolved against what is
cached, so all teams are loaded first. -/
def listTeams (w : World) (withMeta : Bool) (permission : Option String) :
    m (World × Except String Json) := do
  let inc := includesOf withMeta
  let show_ (w : World) (key : Key String) : m (World × Except String Json) := do
    match ← loaded drive w teamsName key inc with
    | (w, .error e) => return (w, .error e)
    | (w, .ok ()) => return (w, .ok (.arr ((Team.sort (cachedTeams w key)).map Team.encode)))
  match permission with
  | none => show_ w .all
  | some p =>
    match ← loaded drive w teamsName .all inc with
    | (w, .error e) => return (w, .error e)
    | (w, .ok ()) => show_ w (Teams.withPermission p)

/-- Show one team. -/
def getTeam (w : World) (id : String) (withMeta : Bool) : m (World × Except String Json) := do
  match ← loaded drive w teamsName (.single id) (includesOf withMeta) with
  | (w, .error e) => return (w, .error e)
  | (w, .ok ()) =>
    return (w, match cachedTeams w (.single id) with
      | t :: _ => .ok t.encode
      | [] => .error ("Team not found: " ++ id))

/-- Show the session. -/
def showSession (w : World) : m (World × Except String Json) := do
  match ← loaded drive w sessionName (.single "()") .none with
  | (w, .error e) => return (w, .error e)
  | (w, .ok ()) =>
    return (w, match cachedSession w with
      | some s => .ok s.encode
      | none => .error "Session state is not available")

/-- Show the settings, or one of them. -/
def showSettings (w : World) (key : Option String) : m (World × Except String Json) := do
  match ← loaded drive w settingsName (.single "()") .none with
  | (w, .error e) => return (w, .error e)
  | (w, .ok ()) =>
    let r := cachedSettings w
    return (w, match key with
      | some k =>
        match r.bind fun r => Server.setting? r k with
        | some v => .ok v
        | none => .error ("Setting not found: " ++ k)
      | none =>
        .ok (.ofOption ((r.bind fun r => r.cache.data.get? .only).map Api.ProductSettings.encode)))

/-- Perform a command that ends: the value to be shown, or the message of the error. Following
something does not end and is not performed here. -/
def perform (w : World) (command : Command) : m (World × Except String Json) := do
  let operation (call : Teams.Call) : m (World × Except String Json) := do
    let (w, result) ← operated drive w call
    return (w, result.map yieldJson)
  match command with
  | .listTeams withMeta permission => listTeams drive w withMeta permission
  | .getTeam id withMeta => getTeam drive w id withMeta
  | .createTeam input => operation (.create input)
  | .updateTeam input => operation (.update input)
  | .deleteTeams ids force => operation (.delete (.list ids) force)
  | .teamUsers id => operation (.grantedUsers id)
  | .teamAccess id => operation (.connectionAccess id)
  | .session => showSession drive w
  | .settings key => showSettings drive w key
  | .watch .. => return (w, .ok .null)

end

/-! ## Following -/

/-- What is said while something is followed. -/
inductive Saying where
  /-- A value, to be written as YAML. -/
  | value (j : Json)
  /-- A remark beside it. -/
  | remark (text : String)

/-- The label of the binding that follows a target. -/
def WatchTarget.label : WatchTarget → String
  | .teams => "teams"
  | .settings => "settings"

/-- Bind both targets; only the one that is followed is active. -/
def bindTargets (w : World) (target : WatchTarget) : World :=
  let bind (w : World) (resource : String) (t : WatchTarget) (key : Key String) : World :=
    (w.act (.onResource (some resource) (.bind t.label (some key) .none
      { active := t = target } true true))).1
  bind (bind w teamsName .teams .all) settingsName .settings (.single "()")

/-- What is said of the state of a binding. -/
def sayingOf {ν : Type} (encode : ν → Json) : BindingState ν → Option Saying
  | .idle => none
  | .loading => some (.remark "loading...")
  | .loaded (.many values) => some (.value (.arr (values.map encode)))
  | .loaded (.one value) => some (.value (encode value))
  | .failed f => some (.remark ("error: " ++ f.message ++ " (press ctrl-c to stop)"))

/-- What is said of a target. -/
def sayingAbout (w : World) (target : WatchTarget) : Option Saying := do
  let (i, cell) ← w.labels.get? target.label
  match ← w.holding? i with
  | .teams s =>
    let b ← (← s.cells.get? cell).binding
    sayingOf Team.encode (b.state s.resource)
  | .settings s =>
    let b ← (← s.cells.get? cell).binding
    sayingOf Api.ProductSettings.encode (b.state s.resource)
  | _ => none

/-- One tick, the `n`-th, counted from one: the session is refreshed when it is its turn, the binding
is polled, and if anything changed its state is told. -/
def tick (w : World) (target : WatchTarget) (sessionEvery n : Nat) : World × Option Saying :=
  let w := if sessionEvery > 0 ∧ n % sessionEvery = 0 then
      (w.act (.onResource (some sessionName) (.load (.single "()") .none true))).1
    else w
  match w.act (.onBinding target.label .poll) with
  | (w, .truth true) => (w, sayingAbout w target)
  | (w, _) => (w, none)

end Larder.Cli
