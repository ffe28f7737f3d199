import Larder.Configuration

/-!
# Files as the world sees them

A working directory with all that is in it, given as a list of paths. Directories on the way to a
file are there too.
-/

namespace Larder.World

/-- What is under a path. -/
inductive FileEntry where
  /-- A file with a text. -/
  | text (contents : String)
  /-- A file whose bytes are no text. -/
  | bytes
  /-- A directory. -/
  | directory

/-- A working directory. -/
structure Files where
  /-- Paths, as lists of names, with what is there. -/
  entries : List (List String × FileEntry) := []

namespace Files

/-- The names of a path. -/
def namesOf (path : String) : List String := path.splitOn "/"

/-- The working directory with the entries of a list. -/
def ofList (entries : List (String × FileEntry)) : Files :=
  ⟨entries.map fun e => ((namesOf e.1).filter fun n => !(n.isEmpty || n = "."), e.2)⟩

/-- What is under a list of names. -/
def entry? (f : Files) (names : List String) : Option FileEntry :=
  match f.entries.find? fun e => e.1 = names with
  | some e => some e.2
  | none =>
    if names.isEmpty || f.entries.any fun e => names.isPrefixOf e.1 then some .directory else none

/-- Whether a directory is under a list of names. -/
def isDirectory (f : Files) (names : List String) : Bool :=
  match f.entry? names with
  | some .directory => true
  | _ => false

/-- Follow the names of a path from a directory: where they lead, if every name before the last is a
directory. Above the working directory nothing is known. -/
def walk? (f : Files) (at_ : List String) : List String → Option (List String)
  | [] => some at_
  | n :: rest =>
    if !f.isDirectory at_ then none
    else if n.isEmpty || n = "." then f.walk? at_ rest
    else if n = ".." then (if at_.isEmpty then none else f.walk? at_.dropLast rest)
    else f.walk? (at_ ++ [n]) rest

/-- What is found under a path. -/
def look (f : Files) (path : String) : Configuration.Found :=
  if path.isEmpty || path.front = '/' then .nothing
  else match (f.walk? [] (namesOf path)).bind f.entry? with
    | none => .nothing
    | some (.text contents) => .text contents
    | some _ => .other

end Files

end Larder.World
