import Larder.Cli.App
import Larder.Cli.Arguments
import Larder.World.Files

/-!
# Scripted runs

A command line can be run against prepared answers, prepared files and a clock that stands still. The
run is a function: what is written, what was asked of the service and how it ended.
-/

namespace Larder.Cli

/-- What a run finds around it. -/
structure Surroundings where
  /-- The files. -/
  files : World.Files := {}
  /-- The directory for configurations. -/
  directory : Option String := none
  /-- The token, if there is one. -/
  token : Option String := none
  /-- The time. -/
  clock : Instant
  /-- For each operation the answers of the server; the last one is given again and again. -/
  answers : List (String × List Api.HttpAnswer) := []

/-- Where something is written. -/
inductive Stream where
  /-- Values. -/
  | output
  /-- Remarks. -/
  | remarks
deriving DecidableEq, Repr

/-- How a run ended. -/
inductive Ending where
  /-- As it should. -/
  | success
  /-- With an error. -/
  | failure (message : String)
  /-- The command line was wrong. -/
  | usage
  /-- A calculation broke down. -/
  | brokenDown

/-- The code by which others learn how a run ended. -/
def Ending.code : Ending → Nat
  | .success => 0
  | .failure _ => 1
  | .usage => 2
  | .brokenDown => 101

/-- What came of a run. -/
structure Transcript where
  /-- How it ended. -/
  ending : Ending
  /-- What was written. -/
  output : String := ""
  /-- What was remarked, line by line. -/
  remarks : List String := []
  /-- What was asked of the service, as it was posted. -/
  posts : List (Api.Request × Api.Post) := []

/-- The service that gives prepared answers; for any other operation nothing is found. -/
def scriptedService (answers : List (String × List Api.HttpAnswer)) : World.Service :=
  let service : World.Service := { otherwise := fun operation => some (.error (.http operation 404)) }
  service.prepare (answers.map fun a => (a.1, a.2.map fun h => { answer := h.data a.1 }))

/-- The requests a world has sent. -/
def sentRequests (w : World) : List Api.Request :=
  w.calls.filterMap fun c =>
    match c with
    | .request r => some r
    | .prompted .. => none

/-- Whether a text occurs in another. -/
def occursIn (part whole : List Char) : Bool :=
  part.isPrefixOf whole || match whole with
    | [] => false
    | _ :: rest => occursIn part rest

/-- How many ticks a scripted run waits for its interruption at most. -/
def mostTicks : Nat := 1000

/-- Follow a target, tick by tick, until the text that interrupts shows up. -/
def follow (target : WatchTarget) (sessionEvery : Nat) (stream : Stream) (text : String) :
    Nat → Nat → World → Transcript → Transcript
  | 0, _, _, t => t
  | fuel + 1, n, w, t =>
    let (w, saying) := tick w target sessionEvery n
    let t := match saying with
      | some (.value j) => { t with output := t.output ++ Yaml.text j }
      | some (.remark r) => { t with remarks := t.remarks ++ [r] }
      | none => t
    let shown := match stream with
      | .output => t.output
      | .remarks => String.join (t.remarks.map fun r => r ++ "\n")
    if occursIn text.toList shown.toList then t
    else follow target sessionEvery stream text fuel (n + 1) w.run t

/-- Run a command of an application. -/
def runCommand (app : App) (token : Option String) (interrupt : Option (Stream × String))
    (command : Command) : Transcript :=
  let w := app.world.run
  match command with
  | .watch target _ sessionEvery =>
    let (stream, text) := interrupt.getD (.output, "")
    follow target sessionEvery stream text mostTicks 1 (bindTargets w target).run
      { ending := .success }
  | command =>
    let (w, result) : World × Except String Json := Id.run (perform (fun w => pure w.run) w command)
    let posts := (sentRequests w).map fun r => (r, r.post app.endpoint token)
    match result with
    | .ok j => { ending := .success, output := Yaml.text j, posts := posts }
    | .error e => { ending := .failure e, posts := posts }

/-- Run a command line. The text that helps with it is not part of a transcript. -/
def run (s : Surroundings) (interrupt : Option (Stream × String)) (words : List String) :
    Transcript :=
  match Invocation.parse words with
  | .error .usage => { ending := .usage }
  | .error .help => { ending := .success }
  | .error .version => { ending := .success, output := versionText ++ "\n" }
  | .ok invocation =>
    match Id.run (Configuration.load (fun p => pure (s.files.look p)) invocation.config s.directory) with
    | .error trouble => { ending := .failure trouble.message }
    | .ok c =>
      match App.start (override c invocation.url) s.clock (scriptedService s.answers) with
      | .error (.badServer url rejection) => { ending := .failure (rejection.message url) }
      | .error .brokenDown => { ending := .brokenDown }
      | .ok app => runCommand app s.token interrupt invocation.command

end Larder.Cli
