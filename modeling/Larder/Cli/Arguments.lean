import Larder.Cli.Command

/-!
# Command lines

A command line is a list of words: options, commands and their arguments. A *grammar* says which
options, arguments and commands there are at one level; a command has a grammar of its own, by which
the words behind it are read.

Options are written `--name value`, `--name=value`, `-n value`, `-nvalue` or `-n=value`; behind a
word `--` nothing is an option. An option is given once unless it repeats. Asking for help or for the
version ends the reading at once.
-/

namespace Larder.Cli

/-- Why a command line was not read to its end. -/
inductive Stop where
  /-- It is wrong. -/
  | usage
  /-- Help was asked for. -/
  | help
  /-- The version was asked for. -/
  | version
deriving DecidableEq, Repr

/-- What an option does. -/
inductive Effect where
  /-- It takes a value, once or again and again. -/
  | value (repeats : Bool) (accepts : String → Bool)
  /-- It is there or not. -/
  | flag
  /-- It ends the reading. -/
  | stops (stop : Stop)

/-- An option. -/
structure Switch where
  /-- Its long name. -/
  long : String
  /-- Its short name. -/
  short : Option Char := none
  /-- What it does. -/
  effect : Effect

/-- An argument without a name. -/
structure Place where
  /-- Whether it takes all that follow. -/
  many : Bool := false
  /-- Whether it has to be there. -/
  required : Bool := true
  /-- What it accepts. -/
  accepts : String → Bool := fun _ => true

/-- What may be said at one level. -/
inductive Grammar where
  /-- Options, arguments and commands. -/
  | level (switches : List Switch) (places : List Place) (commands : List (String × Grammar))

/-- The options of a level. -/
def Grammar.switches : Grammar → List Switch
  | .level switches _ _ => switches

/-- The arguments of a level. -/
def Grammar.places : Grammar → List Place
  | .level _ places _ => places

/-- The commands of a level. -/
def Grammar.commands : Grammar → List (String × Grammar)
  | .level _ _ commands => commands

/-- What was said at one level. -/
structure Said where
  /-- The options with their values, in order; those without a value have an empty one. -/
  options : List (String × String) := []
  /-- The arguments. -/
  arguments : List String := []

/-- The value of an option. -/
def Said.option? (s : Said) (name : String) : Option String :=
  (s.options.find? fun o => o.1 = name).map Prod.snd

/-- All values of an option. -/
def Said.options? (s : Said) (name : String) : List String :=
  (s.options.filter fun o => o.1 = name).map Prod.snd

/-- Whether an option was given. -/
def Said.has (s : Said) (name : String) : Bool := (s.option? name).isSome

/-- The state of reading one level. -/
structure Reading where
  /-- What was said so far. -/
  said : Said := {}
  /-- An option that waits for its value, or whose value waits to be looked at. -/
  pending : Option (Switch × Option String) := none
  /-- Whether nothing is an option any more. -/
  literal : Bool := false

namespace Reading

/-- Take an option with its value. -/
def take (r : Reading) (s : Switch) (value : String) : Except Stop Reading :=
  match s.effect with
  | .stops stop => .error stop
  | .flag =>
    if r.said.has s.long then .error .usage
    else .ok { r with said := { r.said with options := r.said.options ++ [(s.long, value)] } }
  | .value repeats accepts =>
    if !accepts value || (!repeats && r.said.has s.long) then .error .usage
    else .ok { r with said := { r.said with options := r.said.options ++ [(s.long, value)] } }

/-- Look at the option that is pending. -/
def settle (r : Reading) : Except Stop Reading :=
  match r.pending with
  | none => .ok r
  | some (_, none) => .error .usage
  | some (s, some value) => { r with pending := none }.take s value

/-- An option by itself, with the value that is attached to it, if any. -/
def meet (r : Reading) (s : Switch) (attached : Option String) : Except Stop Reading := do
  match s.effect, attached with
  | .value .., some value => (← r.settle).take s value
  | .value .., none => return { ← r.settle with pending := some (s, none) }
  | _, some _ => throw .usage
  | _, none => (← r.settle).take s ""

/-- A word that begins with two hyphens. -/
def longWord (g : Grammar) (r : Reading) (word : List Char) : Except Stop Reading :=
  let (name, behind) := word.span fun c => !(c = '=')
  let attached := match behind with
    | _ :: value => some (String.ofList value)
    | [] => none
  match g.switches.find? fun s => s.long = String.ofList name with
  | some s => r.meet s attached
  | none => .error .usage

/-- A word that begins with one hyphen: some options, the last of which may have a value. -/
def shortWord (g : Grammar) (r : Reading) : List Char → Except Stop Reading
  | [] => .ok r
  | c :: rest =>
    match g.switches.find? fun s => s.short = some c with
    | none => .error .usage
    | some s =>
      match s.effect with
      | .value .. =>
        r.meet s <| match rest with
          | [] => none
          | '=' :: value => some (String.ofList value)
          | value => some (String.ofList value)
      | _ =>
        match r.meet s none with
        | .error stop => .error stop
        | .ok r => shortWord g r rest

/-- An argument without a name. -/
def argument (g : Grammar) (r : Reading) (word : String) : Except Stop Reading := do
  let r ← r.settle
  let n := r.said.arguments.length
  let place := match (g.places.drop n).head?, g.places.getLast? with
    | some p, _ => some p
    | none, some p => if p.many then some p else none
    | none, none => none
  match place with
  | none => throw .usage
  | some p =>
    if p.accepts word then
      return { r with said := { r.said with arguments := r.said.arguments ++ [word] } }
    else throw .usage

/-- One word that is no command. -/
def word (g : Grammar) (r : Reading) (w : String) : Except Stop Reading :=
  if r.literal then r.argument g w
  else match w.toList with
    | ['-', '-'] => .ok { r with literal := true }
    | '-' :: '-' :: rest => r.longWord g rest
    | '-' :: c :: rest => r.shortWord g (c :: rest)
    | _ =>
      match r.pending with
      | some (s, none) => .ok { r with pending := some (s, some w) }
      | _ => r.argument g w

/-- Whether a word may be a command here. -/
def mayCommand (r : Reading) : Bool :=
  !r.literal && match r.pending with
    | some (_, none) => false
    | _ => true

end Reading

/-- Whether words lead to a command, for its help. -/
def Grammar.leadsTo (g : Grammar) : List String → Bool
  | [] => true
  | w :: rest =>
    match g.commands.find? fun c => c.1 = w with
    | some c => c.2.leadsTo rest
    | none => w = "help" && !g.commands.isEmpty && rest.isEmpty

/-- Read the words of a level: what was said there, and at the levels of the commands below it, each
with its name. -/
def Grammar.read (g : Grammar) (r : Reading) : List String → Except Stop (List (String × Said))
  | [] => do
    let r ← r.settle
    let needed := (g.places.filter Place.required).length
    if !g.commands.isEmpty || r.said.arguments.length < needed then throw .usage
    else return [("", r.said)]
  | w :: rest =>
    let command := if r.mayCommand then g.commands.find? fun c => c.1 = w else none
    match command with
    | some (_, h) => do
      let below ← h.read {} rest
      let r ← r.settle
      return ("", r.said) :: match below with
        | (_, said) :: further => (w, said) :: further
        | [] => []
    | none =>
      if r.mayCommand && w = "help" && !g.commands.isEmpty then
        throw (if g.leadsTo rest then .help else .usage)
      else
        match r.word g w with
        | .error stop => .error stop
        | .ok r => g.read r rest

/-! ## The grammar of the program -/

/-- The name of the program and its version. -/
def versionText : String := "rescache 0.1.0"

/-- Asking for help. -/
def helpSwitch : Switch := ⟨"help", some 'h', .stops .help⟩

/-- An option that takes any value once. -/
def once (long : String) : Switch := ⟨long, none, .value false fun _ => true⟩

/-- An option without a value. -/
def flag (long : String) : Switch := ⟨long, none, .flag⟩

/-- The decimal number a word writes, behind an optional plus sign. Where `signed` numbers are read,
a zero may have a minus sign. -/
def number? (signed : Bool) (w : String) : Option Nat :=
  let value? (ds : List Char) : Option Nat :=
    if ds.isEmpty || !ds.all Char.isDigit then none
    else some (ds.foldl (fun n d => n * 10 + (d.toNat - '0'.toNat)) 0)
  match w.toList with
  | '+' :: ds => value? ds
  | '-' :: ds => if signed then (value? ds).filter (· = 0) else none
  | ds => value? ds

/-- An option that takes a number of so many bits. Those of less than 64 bits are read as signed
numbers first. -/
def numeric (long : String) (bits : Nat) : Switch :=
  ⟨long, none, .value false fun w => (number? (bits < 64) w).any (· < Nat.pow 2 bits)⟩

/-- The grammar of a command that creates or changes a team. -/
def teamGrammar : Grammar :=
  .level [helpSwitch, once "name", once "description",
    ⟨"permission", none, .value true fun _ => true⟩] [{}] []

/-- The grammar of the commands on teams. -/
def teamsGrammar : Grammar :=
  .level [helpSwitch] [] [
    ("list", .level [helpSwitch, flag "meta", once "permission"] [] []),
    ("get", .level [helpSwitch, flag "meta"] [{}] []),
    ("create", teamGrammar),
    ("update", teamGrammar),
    ("delete", .level [helpSwitch, flag "force"] [{ many := true }] []),
    ("users", .level [helpSwitch] [{}] []),
    ("access", .level [helpSwitch] [{}] [])]

/-- What can be followed, by name. -/
def watchTarget? (w : String) : Option WatchTarget :=
  if w = "teams" then some .teams else if w = "settings" then some .settings else none

/-- The grammar of the program. -/
def grammar : Grammar :=
  .level [helpSwitch, ⟨"version", some 'V', .stops .version⟩,
      ⟨"config", some 'c', .value false fun w => !w.isEmpty⟩,
      ⟨"url", some 'u', .value false fun _ => true⟩] [] [
    ("teams", teamsGrammar),
    ("session", .level [helpSwitch] [] []),
    ("settings", .level [helpSwitch] [{ required := false }] []),
    ("watch", .level [helpSwitch, numeric "tick-ms" 64,
      numeric "session-every" 32] [{ accepts := fun w => (watchTarget? w).isSome }] [])]

/-! ## Commands from words -/

/-- The team that a command on it describes. -/
def teamInput (said : Said) (id : String) : TeamInput where
  teamId := id
  teamName := said.option? "name"
  description := said.option? "description"
  permissions := said.options? "permission"

/-- The command on teams with a name. -/
def teamsCommand? (name : String) (said : Said) : Option Command :=
  match name, said.arguments with
  | "list", _ => some (.listTeams (said.has "meta") (said.option? "permission"))
  | "get", id :: _ => some (.getTeam id (said.has "meta"))
  | "create", id :: _ => some (.createTeam (teamInput said id))
  | "update", id :: _ => some (.updateTeam (teamInput said id))
  | "delete", ids => some (.deleteTeams ids (said.has "force"))
  | "users", id :: _ => some (.teamUsers id)
  | "access", id :: _ => some (.teamAccess id)
  | _, _ => none

/-- The command with a name. -/
def command? (name : String) (said : Said) : Option Command :=
  let count (option : String) (fallback : Nat) : Nat :=
    ((said.option? option).bind (number? true)).getD fallback
  match name, said.arguments with
  | "session", _ => some .session
  | "settings", args => some (.settings args.head?)
  | "watch", target :: _ =>
    (watchTarget? target).map fun t => .watch t (max (count "tick-ms" 250) 10) (count "session-every" 0)
  | _, _ => none

/-- What a command line says. -/
def Invocation.parse (words : List String) : Except Stop Invocation := do
  let levels ← grammar.read {} words
  let (top, command) := match levels with
    | [(_, top), (name, said)] => (top, command? name said)
    | [(_, top), (_, _), (name, said)] => (top, teamsCommand? name said)
    | _ => ({}, none)
  match command with
  | none => throw .usage
  | some c => return { config := top.option? "config", url := top.option? "url", command := c }

end Larder.Cli
