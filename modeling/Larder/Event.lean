import Larder.Failure
import Larder.Key

/-!
# Events

Everything that happens to a resource is told to its subscribers as an event.
-/

namespace Larder

/-- A change a resource publishes. -/
inductive Event (κ : Type) where
  /-- A load of the key started. -/
  | loading (key : Key κ)
  /-- A load of the key finished and wrote the entries. -/
  | loaded (key : Key κ) (keys : List κ)
  /-- Entries were written locally. -/
  | updated (keys : List κ)
  /-- Entries were marked outdated; their data is what it was. -/
  | outdated (keys : List κ)
  /-- Entries were removed. -/
  | deleted (keys : List κ)
  /-- A load of the key failed. -/
  | failed (key : Key κ) (failure : Failure)
  /-- All entries were removed. -/
  | cleared

namespace Event

variable {κ μ : Type}

/-- Whether readers may see other data after the event. -/
def changesData : Event κ → Bool
  | .loaded .. | .updated _ | .deleted _ | .cleared => true
  | .loading _ | .outdated _ | .failed .. => false

/-- The event with its concrete keys sent through `f`. -/
def map (f : κ → μ) : Event κ → Event μ
  | .loading key => .loading (key.map f)
  | .loaded key keys => .loaded (key.map f) (keys.map f)
  | .updated keys => .updated (keys.map f)
  | .outdated keys => .outdated (keys.map f)
  | .deleted keys => .deleted (keys.map f)
  | .failed key failure => .failed (key.map f) failure
  | .cleared => .cleared

end Event

end Larder
