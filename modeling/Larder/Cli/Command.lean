import Larder.Teams.Basic

/-!
# Commands

What can be asked for on the command line.
-/

namespace Larder.Cli

/-- What can be followed. -/
inductive WatchTarget where
  /-- All teams. -/
  | teams
  /-- The settings of the product. -/
  | settings
deriving DecidableEq, Repr

/-- A command. -/
inductive Command where
  /-- List teams, all of them or those with a permission. -/
  | listTeams (withMeta : Bool) (permission : Option String)
  /-- Show one team. -/
  | getTeam (id : String) (withMeta : Bool)
  /-- Create a team. -/
  | createTeam (input : TeamInput)
  /-- Change a team. -/
  | updateTeam (input : TeamInput)
  /-- Delete teams. -/
  | deleteTeams (ids : List String) (force : Bool)
  /-- List the users of a team. -/
  | teamUsers (id : String)
  /-- List the connections granted to a team. -/
  | teamAccess (id : String)
  /-- Show the session. -/
  | session
  /-- Show the settings of the product, or one of them. -/
  | settings (key : Option String)
  /-- Show something whenever it changes. -/
  | watch (target : WatchTarget) (tickMillis sessionEvery : Nat)

/-- What a command line says. -/
structure Invocation where
  /-- The file with the configuration. -/
  config : Option String
  /-- The address of the service, in place of the configured one. -/
  url : Option String
  /-- The command. -/
  command : Command

end Larder.Cli
