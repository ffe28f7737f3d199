import Larder.Failure
import Larder.Includes
import Larder.Instant
import Larder.Key
import Larder.Table

/-!
# The ledger of a cache

The ledger says, for every concrete key and every alias, whether data was loaded for it, with which
includes, whether it is outdated, how many loads of it run, and how its last load failed.

It also numbers what happens. Every load and every local change draws a sequence number; a write
*stamps* its key, an invalidation its target, and a load that started before a stamp neither writes
what the stamp covers nor calls it fresh. Stamps matter to running loads only, so they are dropped
when none is left.
-/

namespace Larder

/-- What the ledger keeps a record of. -/
inductive Target (κ : Type) where
  /-- A concrete key. -/
  | key (k : κ)
  /-- An alias. -/
  | named (a : Alias)
deriving DecidableEq, Repr

/-- The record of a target. -/
structure EntryMeta where
  /-- Whether data was ever loaded or written. -/
  loaded : Bool := false
  /-- Whether it has to be loaded again. -/
  outdated : Bool := true
  /-- How many loads run. -/
  loading : Nat := 0
  /-- The groups of fields the data was loaded with. -/
  includes : Includes := Includes.none
  /-- How the last load failed, if it did. -/
  failure : Option Failure := none
  /-- When the data was last loaded or written. -/
  loadedAt : Option Instant := none

namespace EntryMeta

/-- Whether a load runs. -/
def isLoading (m : EntryMeta) : Bool := m.loading > 0

/-- Whether a request with some includes has to load. -/
def isStale (m : EntryMeta) (inc : Includes) : Bool :=
  m.outdated || !m.loaded || !inc.coveredBy m.includes

/-- The record after a successful load. Includes add up while the entry stays fresh; the load of an
outdated entry starts over. -/
def afterLoad (m : EntryMeta) (inc : Includes) (now : Instant) : EntryMeta :=
  { m with
    includes := if m.loaded && !m.outdated then m.includes.union inc else inc
    loaded := true
    outdated := false
    failure := none
    loadedAt := some now }

/-- The record after a local write: fresh, the includes as they were. -/
def afterWrite (m : EntryMeta) (now : Instant) : EntryMeta :=
  { m with loaded := true, outdated := false, failure := none, loadedAt := some now }

/-- A new record that only remembers the running loads. -/
def onlyLoading (m : EntryMeta) : EntryMeta := { loading := m.loading }

end EntryMeta

/-- What makes two loads the same. -/
structure Signature (κ : Type) where
  /-- What is loaded. -/
  key : Key κ
  /-- The groups of fields asked for. -/
  includes : Includes
deriving DecidableEq

/-- A running load that others can join. -/
structure InFlight (κ : Type) where
  /-- The number of the load. -/
  seq : Nat
  /-- What it loads: the targets as they were resolved when it started. -/
  targets : List (Target κ)

/-- The bookkeeping of a cache. -/
structure Ledger (κ : Type) where
  /-- The records. -/
  metas : Table (Target κ) EntryMeta := .empty
  /-- For each signature the load to join. -/
  inFlight : Table (Signature κ) (InFlight κ) := .empty
  /-- The numbers of the loads that have not ended. -/
  running : List Nat := []
  /-- For each key the number of its last write. -/
  stamps : Table κ Nat := .empty
  /-- For each target the number of its last invalidation. -/
  invalidated : Table (Target κ) Nat := .empty
  /-- The number of the last clearing. -/
  clearedAt : Nat := 0
  /-- The number of the last invalidation of everything. -/
  allOutdatedAt : Nat := 0
  /-- The last number drawn. -/
  seq : Nat := 0

namespace Ledger

variable {κ : Type} [DecidableEq κ]

/-! ## Records -/

/-- The record of a target, if there is one. -/
def meta? (l : Ledger κ) (t : Target κ) : Option EntryMeta := l.metas.get? t

/-- The record of a target, a new one if there is none. -/
def metaOf (l : Ledger κ) (t : Target κ) : EntryMeta := (l.meta? t).getD {}

/-- Replace the record of a target. -/
def setMeta (l : Ledger κ) (t : Target κ) (m : EntryMeta) : Ledger κ :=
  { l with metas := l.metas.set t m }

/-- Whether a request for a target with some includes has to load. -/
def isOutdated (l : Ledger κ) (t : Target κ) (inc : Includes) : Bool :=
  match l.meta? t with
  | some m => m.isStale inc
  | none => true

/-- Whether a target was loaded with some includes, outdated or not. -/
def isLoaded (l : Ledger κ) (t : Target κ) (inc : Includes) : Bool :=
  match l.meta? t with
  | some m => m.loaded && inc.coveredBy m.includes
  | none => false

/-- Whether a load of a target runs. -/
def isLoading (l : Ledger κ) (t : Target κ) : Bool :=
  match l.meta? t with
  | some m => m.isLoading
  | none => false

/-- How the last load of a target failed, if it did. -/
def failureOf (l : Ledger κ) (t : Target κ) : Option Failure := (l.meta? t).bind EntryMeta.failure

/-! ## Numbers and stamps -/

/-- The ledger with the next number drawn; the number is its `seq`. -/
def draw (l : Ledger κ) : Ledger κ := { l with seq := l.seq + 1 }

/-- Stamp a key as written at `seq`. -/
def stamp (l : Ledger κ) (k : κ) (seq : Nat) : Ledger κ :=
  { l with stamps := l.stamps.set k (max ((l.stamps.get? k).getD seq) seq) }

/-- Note a clearing at `seq`. -/
def stampClear (l : Ledger κ) (seq : Nat) : Ledger κ :=
  { l with clearedAt := max l.clearedAt seq }

/-- Whether a number stands in a table and is greater than `seq`. -/
def later (stamp : Option Nat) (seq : Nat) : Bool :=
  match stamp with
  | some s => s > seq
  | none => false

/-- Whether a key was written or cleared after the load `seq` started. -/
def isSuperseded (l : Ledger κ) (k : κ) (seq : Nat) : Bool :=
  l.clearedAt > seq || later (l.stamps.get? k) seq

/-- Whether a target was written, cleared or marked outdated after the load `seq` started. -/
def isInvalidated (l : Ledger κ) (t : Target κ) (seq : Nat) : Bool :=
  l.allOutdatedAt > seq || later (l.invalidated.get? t) seq ||
    match t with
    | .key k => l.isSuperseded k seq
    | .named _ => l.clearedAt > seq

/-- Drop all stamps when no load runs that could ask for them. -/
def settle (l : Ledger κ) : Ledger κ :=
  if l.running.isEmpty then { l with stamps := .empty, invalidated := .empty } else l

/-! ## Marking -/

/-- Record a successful load of a target. -/
def markLoaded (l : Ledger κ) (t : Target κ) (inc : Includes) (now : Instant) : Ledger κ :=
  l.setMeta t ((l.metaOf t).afterLoad inc now)

/-- Record a successful load of a target unless the target was invalidated while it ran. -/
def markLoadedBy (l : Ledger κ) (t : Target κ) (inc : Includes) (now : Instant) (seq : Nat) :
    Ledger κ :=
  if l.isInvalidated t seq then l else l.markLoaded t inc now

/-- Record a local write of a target. -/
def markWritten (l : Ledger κ) (t : Target κ) (now : Instant) : Ledger κ :=
  l.setMeta t ((l.metaOf t).afterWrite now)

/-- Record the failure of a load of a target. -/
def markFailed (l : Ledger κ) (t : Target κ) (f : Failure) : Ledger κ :=
  l.setMeta t { l.metaOf t with failure := some f }

/-- Whether marking a target outdated changes its record. -/
def isFreshRecord (l : Ledger κ) (t : Target κ) : Bool :=
  match l.meta? t with
  | some m => !m.outdated
  | none => false

/-- Mark a target outdated at `seq`. Loads already running will not call it fresh again, whether it
has a record yet or not. -/
def markOutdated (l : Ledger κ) (t : Target κ) (seq : Nat) : Ledger κ :=
  { l with
    invalidated := l.invalidated.set t (max ((l.invalidated.get? t).getD seq) seq)
    metas := l.metas.modify t fun m => { m with outdated := true } }

/-- Mark everything outdated at `seq`. -/
def markAllOutdated (l : Ledger κ) (seq : Nat) : Ledger κ :=
  { l with
    allOutdatedAt := max l.allOutdatedAt seq
    metas := l.metas.mapValues fun m => { m with outdated := true } }

/-- Forget all about a key except the loads still running for it. -/
def forget (l : Ledger κ) (k : κ) : Ledger κ :=
  match l.meta? (.key k) with
  | none => l
  | some m =>
    if m.isLoading then l.setMeta (.key k) m.onlyLoading
    else { l with metas := l.metas.erase (.key k) }

/-- Forget all about everything except the loads still running. -/
def forgetAll (l : Ledger κ) : Ledger κ :=
  { l with metas := (l.metas.filterValues EntryMeta.isLoading).mapValues EntryMeta.onlyLoading }

/-! ## Loads -/

/-- Note at a target that one more load runs; its last failure is forgotten. -/
def beginAt (l : Ledger κ) (t : Target κ) : Ledger κ :=
  let m := l.metaOf t
  l.setMeta t { m with loading := m.loading + 1, failure := none }

/-- Note at a target that one load less runs. -/
def endAt (l : Ledger κ) (t : Target κ) : Ledger κ :=
  { l with metas := l.metas.modify t fun m => { m with loading := m.loading - 1 } }

/-- The load with a signature that can be joined: none of its targets was invalidated since. -/
def joinable? (l : Ledger κ) (s : Signature κ) : Option Nat :=
  match l.inFlight.get? s with
  | none => none
  | some load => if load.targets.any fun t => l.isInvalidated t load.seq then none else some load.seq

/-- Note a new load; it takes the place of one with the same signature that was overtaken. -/
def startLoad (l : Ledger κ) (s : Signature κ) (load : InFlight κ) : Ledger κ :=
  let l := load.targets.foldl beginAt l
  { l with running := l.running ++ [load.seq], inFlight := l.inFlight.set s load }

/-- Note the end of a load. A newer load with the same signature stays; a load that has ended
before changes nothing more. -/
def finishLoad (l : Ledger κ) (s : Signature κ) (seq : Nat) (targets : List (Target κ)) :
    Ledger κ :=
  let l :=
    match l.inFlight.get? s with
    | some load => if load.seq = seq then { l with inFlight := l.inFlight.erase s } else l
    | none => l
  if l.running.contains seq then
    targets.foldl endAt { l with running := l.running.filter fun n => ¬ n = seq }
  else l

end Ledger

end Larder
