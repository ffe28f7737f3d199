import Larder.Key
import Larder.Table

/-!
# Uses

A consumer registers its interest in a key and gets an id for it. While a key has a use, the entries
it stands for are not purged. A key without uses is not kept.
-/

namespace Larder

/-- The id of one registered use. -/
abbrev UseId := Nat

/-- The registered uses of a resource. -/
structure Uses (κ : Type) where
  /-- For each key in use, the ids registered for it. -/
  table : Table (Key κ) (List UseId) := .empty

namespace Uses

variable {κ : Type} [DecidableEq κ]

/-- The ids registered for a key. -/
def idsOf (u : Uses κ) (key : Key κ) : List UseId := (u.table.get? key).getD []

/-- Register a use of a key under an id of its own. -/
def register (u : Uses κ) (key : Key κ) (id : UseId) : Uses κ :=
  ⟨u.table.set key (u.idsOf key ++ [id])⟩

/-- Whether an id is registered for a key. -/
def holds (u : Uses κ) (key : Key κ) (id : UseId) : Bool := (u.idsOf key).contains id

/-- Free a use of a key. A key that is left without an id is not kept. -/
def free (u : Uses κ) (key : Key κ) (id : UseId) : Uses κ :=
  match u.table.get? key with
  | none => u
  | some ids =>
    match ids.filter fun i => ¬ i = id with
    | [] => ⟨u.table.erase key⟩
    | rest => ⟨u.table.set key rest⟩

/-- Whether an id is registered for any key. -/
def hasId (u : Uses κ) (id : UseId) : Bool := u.table.values.any fun ids => ids.contains id

/-- Whether a key has a use. -/
def isUsed (u : Uses κ) (key : Key κ) : Bool := u.table.contains key

/-- How many uses a key has. -/
def count (u : Uses κ) (key : Key κ) : Nat := (u.idsOf key).length

/-- The keys with at least one use. -/
def tracked (u : Uses κ) : List (Key κ) := u.table.keys

end Uses

end Larder
