import Larder.Api.Wire
import Larder.Cli.Script
import Std.Async.DNS
import Std.Async.Signal
import Std.Async.TCP
import Std.Async.Timer

/-!
# The command line

Reads the surroundings, performs one command, and posts the requests that the resources make to the
service. What is said and how it ends is decided by `Larder.Cli`; here it is only carried out.
-/

namespace Larder.Main

open Larder.Cli

/-! ## Surroundings -/

/-- What is under a path. -/
def look (path : String) : IO Configuration.Found := do
  try
    let bytes ← IO.FS.readBinFile path
    return match String.fromUTF8? bytes with
      | some s => .text s
      | none => .other
  catch e =>
    return match e with
      | .noFileOrDirectory .. => .nothing
      | _ => .other

/-- The directory for configurations: the one that is named, if its path is absolute, or else one in
the home directory. -/
def configurationDirectory : IO (Option String) := do
  match ← IO.getEnv "XDG_CONFIG_HOME" with
  | some d => if d.startsWith "/" then return some d
  | none => pure ()
  return (← IO.getEnv "HOME").map (· ++ "/.config")

/-- The token in the surroundings, if there is one. -/
def token : IO (Option String) := do
  return (← IO.getEnv "RESCACHE_TOKEN").filter (!·.isEmpty)

/-- The time of day. -/
def now : IO Instant := do
  let stamp := (← Std.Time.Timestamp.now).val
  return { seconds := stamp.second.val, nanos := stamp.nano.val.toNat }

/-! ## Exchanges -/

/-- What is said of an exchange that did not take place. -/
def unsent (e : Endpoint) : Api.ServiceError :=
  .transport ("error sending request for url (" ++ { e with user := "", password := "" }.text ++ ")")

/-- Everything that comes in until the other side is done. -/
partial def receiveAll (client : Std.Async.TCP.Socket.Client) (bytes : ByteArray) :
    Std.Async.Async ByteArray := do
  match ← client.recv? 65536 with
  | none => return bytes
  | some more => receiveAll client (bytes ++ more)

/-- Send a message to an endpoint and receive what comes back. -/
def exchange (e : Endpoint) (message : String) : Std.Async.Async ByteArray := do
  let port := e.port.getD 80
  let host := (e.host.text.replace "[" "").replace "]" ""
  let addresses ← Std.Async.DNS.getAddrInfo host (toString port)
  let some address := addresses[0]? | throw (IO.userError "no address")
  let client ← Std.Async.TCP.Socket.Client.mk
  client.connect (match address with
    | .v4 a => .v4 ⟨a, port.toUInt16⟩
    | .v6 a => .v6 ⟨a, port.toUInt16⟩)
  client.send message.toUTF8
  receiveAll client .empty

/-- Post a request. -/
def post (e : Endpoint) (who : Option String) (r : Api.Request) : IO World.Answer := do
  try
    if e.secure then return .error (unsent e)
    let bytes ← (exchange e ((r.post e who).wire (e.host.text ++ e.portText))).block
    match Api.HttpAnswer.ofWire? bytes.toList with
    | some answer => return answer.data r.operation
    | none => return .error (unsent e)
  catch _ => return .error (unsent e)

/-- Posts on their way, each with the number of its ticket. -/
abbrev Underway := List (Nat × Task (Except IO.Error World.Answer))

/-- Post the requests that nobody has posted yet. -/
def postOpen (send : Api.Request → IO World.Answer) (w : World) (underway : Underway) :
    IO Underway := do
  let fresh := w.tickets.filter fun t =>
    t.answer.isNone && !underway.any fun u => u.1 = t.number
  let tasks ← fresh.mapM fun t => do return (t.number, ← IO.asTask (send t.request))
  return underway ++ tasks

/-- Hand an answer to the one who waits for it. -/
def deliver (w : World) (number : Nat) : Except IO.Error World.Answer → World
  | .ok a => w.answer number a
  | .error e => w.answer number (.error (.transport (toString e)))

/-- Let the world go on until no request is open. -/
partial def drive (send : Api.Request → IO World.Answer) (w : World) : IO World := do
  let w := w.run
  match ← postOpen send w [] with
  | [] => return w
  | underway =>
    let w ← underway.foldlM (fun w u => do
      let answer ← IO.wait u.2
      return deliver { w with clock := ← now } u.1 answer) w
    drive send w

/-! ## Following -/

/-- Say something. -/
def say : Saying → IO Unit
  | .value j => do
    let out ← IO.getStdout
    out.putStr (Yaml.text j)
    out.flush
  | .remark text => IO.eprintln text

/-- Sleep; the answer says whether it was an interruption that ended it. -/
def pause (interruption : Std.Async.Signal.Waiter) (millis : Nat) : Std.Async.Async Bool := do
  Std.Async.Selectable.one #[
    .case interruption.selector fun _ => return true,
    .case (← Std.Async.Selector.sleep (.ofNat millis)) fun _ => return false]

/-- Follow a target, tick by tick, until interrupted. -/
partial def follow (send : Api.Request → IO World.Answer)
    (interruption : Std.Async.Signal.Waiter) (target : WatchTarget) (millis sessionEvery n : Nat)
    (w : World) (underway : Underway) : IO Unit := do
  let (w, saying) := tick w target sessionEvery n
  saying.forM say
  let w := w.run
  let underway ← postOpen send w underway
  if ← (pause interruption millis).block then return
  let mut w := w.advance millis
  let mut left : Underway := []
  for u in underway do
    if ← IO.hasFinished u.2 then w := deliver w u.1 u.2.get
    else left := left ++ [u]
  follow send interruption target millis sessionEvery (n + 1) w.run left

/-- Run a command of an application. -/
def runCommand (app : App) (who : Option String) (command : Command) : IO Ending := do
  let send := post app.endpoint who
  match command with
  | .watch target millis sessionEvery =>
    let interruption ← Std.Async.Signal.Waiter.mk .sigint false
    follow send interruption target (max millis 10) sessionEvery 1
      (bindTargets app.world.run target).run []
    return .success
  | command =>
    let (_, result) ← perform (drive send) app.world.run command
    match result with
    | .ok j => say (.value j); return .success
    | .error e => return .failure e

/-- What the program can be asked for. -/
def usage : String :=
  "Usage: rescache [--config FILE] [--url URL] COMMAND\n\n" ++
  "Commands:\n" ++
  "  teams list [--meta] [--permission PERMISSION]\n" ++
  "  teams get ID [--meta]\n" ++
  "  teams create ID [--name NAME] [--description TEXT] [--permission PERMISSION]...\n" ++
  "  teams update ID [--name NAME] [--description TEXT] [--permission PERMISSION]...\n" ++
  "  teams delete ID... [--force]\n" ++
  "  teams users ID\n" ++
  "  teams access ID\n" ++
  "  session\n" ++
  "  settings [KEY]\n" ++
  "  watch teams|settings [--tick-ms MILLIS] [--session-every TICKS]"

/-- Run a command line. -/
def run (words : List String) : IO Ending := do
  match Invocation.parse words with
  | .error .usage => return .usage
  | .error .help => IO.println usage; return .success
  | .error .version => IO.println versionText; return .success
  | .ok invocation =>
    match ← Configuration.load look invocation.config (← configurationDirectory) with
    | .error trouble => return .failure trouble.message
    | .ok c =>
      match App.start (override c invocation.url) (← now) { otherwise := fun _ => none } with
      | .error (.badServer url rejection) => return .failure (rejection.message url)
      | .error .brokenDown => return .brokenDown
      | .ok app => runCommand app (← token) invocation.command

end Larder.Main

/-- Run the command line and report how it ended. -/
def main (words : List String) : IO UInt32 := do
  let ending ← Larder.Main.run words
  match ending with
  | .failure message => IO.eprintln ("Error: " ++ message)
  | .usage => IO.eprintln Larder.Main.usage
  | _ => pure ()
  return ending.code.toUInt32
