import Larder.Cache.Ledger
import Larder.Event
import Larder.Shelf

/-!
# Caches

A cache holds the entries of a remote collection together with the ledger of their freshness. Every
operation is one step: it takes the cache to the next one and tells the events to publish. Loads are
split in two steps, their start and their commit, so that anything may happen in between; the ledger
keeps an older load from overwriting what happened meanwhile.
-/

namespace Larder

/-- What an alias stands for, given the entries. -/
abbrev Resolver (κ ν : Type) [EntryKey κ] := Alias → Shelf κ ν → List κ

/-- How a cache treats entries. -/
structure Policy (κ ν : Type) where
  /-- Combine the cached value with one to be written. Nothing means that this breaks down, and the
  operation breaks off at this entry. -/
  merge : Option ν → ν → Option ν := fun _ next => some next
  /-- Which concrete keys may be loaded. -/
  accepts : κ → Bool := fun _ => true

/-- The entries of a resource and what is known of their freshness. -/
structure Cache (κ ν : Type) [EntryKey κ] where
  /-- The entries. -/
  data : Shelf κ ν := .empty
  /-- The bookkeeping. -/
  ledger : Ledger κ := {}
  /-- The registered aliases. -/
  resolvers : Table String (Resolver κ ν) :=
    ⟨[(Alias.allName, fun _ data => data.keys)]⟩

/-- A load that has started and not been committed. -/
structure PendingLoad (κ : Type) where
  /-- What is loaded. -/
  signature : Signature κ
  /-- The number of the load. -/
  seq : Nat
  /-- The targets it was started for. -/
  targets : List (Target κ)
deriving DecidableEq

/-- What comes of the wish to load a key. -/
inductive Started (κ : Type) where
  /-- The key is not one that may be loaded. -/
  | rejected (failure : Failure)
  /-- There is nothing to load. -/
  | fresh
  /-- A load that runs already will do. -/
  | joined (seq : Nat)
  /-- A new load has to be run. -/
  | begun (load : PendingLoad κ)

/-- What comes of a commit. -/
inductive Committed where
  /-- The entries are written. -/
  | success
  /-- The load failed. -/
  | failure (f : Failure)
  /-- A merge broke down; the load ends without a result. -/
  | brokenOff

/-- A step of a cache: the cache after it, the events to publish, and the answer. -/
structure Change (κ ν α : Type) [EntryKey κ] where
  /-- The cache after the step. -/
  cache : Cache κ ν
  /-- The events, in order. -/
  events : List (Event κ) := []
  /-- The answer. -/
  result : α

namespace Cache

variable {κ ν : Type} [EntryKey κ]

/-! ## Reading -/

/-- The concrete keys a key stands for now. An alias nobody registered stands for none. -/
def resolve (c : Cache κ ν) (key : Key κ) : List κ :=
  match key with
  | .single k => [k]
  | .list ks => ks
  | .byAlias a =>
    match c.resolvers.get? a.name with
    | some r => r a c.data
    | none => []

/-- The targets of a load of a key: its concrete keys, then the alias itself. -/
def targets (c : Cache κ ν) (key : Key κ) : List (Target κ) :=
  (c.resolve key).map .key ++ (key.asAlias.map Target.named).toList

/-- Whether a load of the key would fetch: the alias or one of its keys is not fresh enough. -/
def isOutdated (c : Cache κ ν) (key : Key κ) (inc : Includes) : Bool :=
  (match key.asAlias with
    | some a => c.ledger.isOutdated (.named a) inc
    | none => false)
  || (c.resolve key).any fun k => c.ledger.isOutdated (.key k) inc

/-- Whether the alias and all its keys were loaded with the includes. -/
def isLoaded (c : Cache κ ν) (key : Key κ) (inc : Includes) : Bool :=
  (match key.asAlias with
    | some a => c.ledger.isLoaded (.named a) inc
    | none => true)
  && (c.resolve key).all fun k => c.ledger.isLoaded (.key k) inc

/-- Whether a load of any target of the key runs. -/
def isLoading (c : Cache κ ν) (key : Key κ) : Bool :=
  (c.targets key).any c.ledger.isLoading

/-- The failure kept against the alias or else against the first of its keys that has one. -/
def failureOf (c : Cache κ ν) (key : Key κ) : Option Failure :=
  match key.asAlias.bind fun a => c.ledger.failureOf (.named a) with
  | some f => some f
  | none => (c.resolve key).findSome? fun k => c.ledger.failureOf (.key k)

/-- The cached values the key stands for; keys without a value are passed over. -/
def getMany (c : Cache κ ν) (key : Key κ) : List ν := (c.resolve key).filterMap c.data.get?

/-! ## Building blocks -/

/-- Replace the ledger. -/
def withLedger (c : Cache κ ν) (f : Ledger κ → Ledger κ) : Cache κ ν :=
  { c with ledger := f c.ledger }

/-- Draw a number; it is the ledger's `seq` afterwards. -/
def draw (c : Cache κ ν) : Cache κ ν := c.withLedger Ledger.draw

/-- Drop the stamps nobody can ask for. -/
def settle (c : Cache κ ν) : Cache κ ν := c.withLedger Ledger.settle

/-- Write a value, merged with the one that is cached, unless the merge breaks down. -/
def write? (c : Cache κ ν) (p : Policy κ ν) (k : κ) (v : ν) : Option (Cache κ ν) :=
  (p.merge (c.data.get? k) v).map fun merged => { c with data := c.data.insert k merged }

/-- Remove an entry at `seq`. -/
def remove (c : Cache κ ν) (k : κ) (seq : Nat) : Cache κ ν :=
  { c with data := c.data.erase k, ledger := (c.ledger.forget k).stamp k seq }

/-- The cached keys that are missing from `incoming` and were not written after `seq`. -/
def stale (c : Cache κ ν) (incoming : List κ) (seq : Nat) : List κ :=
  c.data.keys.filter fun k => !incoming.contains k && !c.ledger.isSuperseded k seq

/-- Remove some entries at `seq`. -/
def removeAll (c : Cache κ ν) (keys : List κ) (seq : Nat) : Cache κ ν :=
  keys.foldl (fun c k => c.remove k seq) c

/-- Write entries locally at `seq`, and tell whether all of them could be written. -/
def writeLocally (p : Policy κ ν) (now : Instant) (seq : Nat) :
    List (κ × ν) → Cache κ ν → Cache κ ν × Bool
  | [], c => (c, true)
  | (k, v) :: rest, c =>
    match c.write? p k v with
    | none => (c, false)
    | some c => writeLocally p now seq rest
        (c.withLedger fun l => (l.stamp k seq).markWritten (.key k) now)

/-! ## Local changes -/

/-- Register what an alias stands for. -/
def register (c : Cache κ ν) (name : String) (r : Resolver κ ν) : Cache κ ν :=
  { c with resolvers := c.resolvers.set name r }

/-- Write entries that are known to be right, such as the answer to a change. The answer is false if
a merge broke down; then what was written before it stays and nobody is told. -/
def setMany (c : Cache κ ν) (p : Policy κ ν) (now : Instant) (entries : List (κ × ν)) :
    Change κ ν Bool :=
  let c := c.draw
  match writeLocally p now c.ledger.seq entries c with
  | (c, false) => { cache := c, result := false }
  | (c, true) =>
    { cache := c.settle, events := [.updated (entries.map Prod.fst)], result := true }

/-- Make the cache hold exactly some entries, as after loading the alias for all. The answer is as
for `setMany`. -/
def replace (c : Cache κ ν) (p : Policy κ ν) (now : Instant) (entries : List (κ × ν)) :
    Change κ ν Bool :=
  let c := c.draw
  let seq := c.ledger.seq
  let keys := entries.map Prod.fst
  let removed := c.stale keys seq
  match writeLocally p now seq entries (c.removeAll removed seq) with
  | (c, false) => { cache := c, result := false }
  | (c, true) =>
    { cache := (c.withLedger fun l => l.markWritten (.named Alias.all) now).settle
      events := (if removed.isEmpty then [] else [.deleted removed]) ++ [.updated keys]
      result := true }

/-- Change a cached value in place; its freshness stays what it was. The answer says whether there
was one. -/
def update (c : Cache κ ν) (k : κ) (f : ν → ν) : Change κ ν Bool :=
  match c.data.get? k with
  | none => { cache := c, result := false }
  | some v =>
    let c := { c with data := c.data.insert k (f v) }.draw
    { cache := (c.withLedger fun l => l.stamp k l.seq).settle
      events := [.updated [k]]
      result := true }

/-- Remove the given keys in order at `seq`; the answer is the keys that had a value. -/
def removeEach (seq : Nat) : List κ → Cache κ ν → Cache κ ν × List κ
  | [], c => (c, [])
  | k :: rest, c =>
    let existed := c.data.contains k
    let (c, removed) := removeEach seq rest (c.remove k seq)
    (c, if existed then k :: removed else removed)

/-- Remove what a key stands for. Loads already running will not write it back. The answer is the
keys that had a value. -/
def delete (c : Cache κ ν) (key : Key κ) : Change κ ν (List κ) :=
  let c := c.draw
  let (c, removed) := removeEach c.ledger.seq (c.resolve key) c
  { cache := c.settle
    events := if removed.isEmpty then [] else [.deleted removed]
    result := removed }

/-- Remove everything. -/
def clear (c : Cache κ ν) : Change κ ν Unit :=
  let c := c.draw
  { cache := { c with
      data := .empty
      ledger := (c.ledger.stampClear c.ledger.seq).forgetAll }.settle
    events := [.cleared]
    result := () }

/-- Mark everything outdated. -/
def markAllOutdated (c : Cache κ ν) : Change κ ν Unit :=
  let c := c.draw
  { cache := (c.withLedger fun l => l.markAllOutdated l.seq).settle
    events := [.outdated c.data.keys]
    result := () }

/-- Mark keys outdated in order at `seq`; the second part is the keys that were fresh. -/
def markEach (seq : Nat) : List κ → Ledger κ → Ledger κ × List κ
  | [], l => (l, [])
  | k :: rest, l =>
    let fresh := l.isFreshRecord (.key k)
    let (l, marked) := markEach seq rest (l.markOutdated (.key k) seq)
    (l, if fresh then k :: marked else marked)

/-- Mark outdated what a key stands for, the alias itself included. Loads already running will not
make it fresh. -/
def markOutdated (c : Cache κ ν) (key : Key κ) : Change κ ν Unit :=
  let c := c.draw
  let seq := c.ledger.seq
  let l := match key.asAlias with
    | some a => c.ledger.markOutdated (.named a) seq
    | none => c.ledger
  let (l, marked) := markEach seq (c.resolve key) l
  { cache := { c with ledger := l }.settle
    events := [.outdated marked]
    result := () }

/-- Whether an entry may be purged at a point in time: no load of it runs and it was not loaded or
written after the cutoff. -/
def isExpired (c : Cache κ ν) (cutoff : Instant) (k : κ) : Bool :=
  match c.ledger.meta? (.key k) with
  | none => true
  | some m => !m.isLoading &&
    match m.loadedAt with
    | none => true
    | some at_ => at_.atMost cutoff

/-- The cached keys that nobody uses and that have expired. -/
def expired (c : Cache κ ν) (tracked : List (Key κ)) (cutoff : Instant) : List κ :=
  let kept := tracked.flatMap c.resolve
  c.data.keys.filter fun k => !kept.contains k && c.isExpired cutoff k

/-- Evict entries nobody uses that were loaded at or before the cutoff. The cache then no longer
holds the full list, so the alias for all is outdated. The answer is the evicted keys. -/
def purge (c : Cache κ ν) (tracked : List (Key κ)) (cutoff : Instant) : Change κ ν (List κ) :=
  match c.expired tracked cutoff with
  | [] => { cache := c, result := [] }
  | keys =>
    let c := c.draw
    let seq := c.ledger.seq
    let c := c.removeAll keys seq
    { cache := (c.withLedger fun l => l.markOutdated (.named Alias.all) seq).settle
      events := [.deleted keys]
      result := keys }

/-! ## Loads -/

/-- Why a key may not be loaded: its alias is not registered, or one of its keys is not accepted. -/
def rejection (c : Cache κ ν) (name : String) (p : Policy κ ν) (key : Key κ) : Option Failure :=
  match key.asAlias with
  | some a =>
    if c.resolvers.contains a.name then none else some (.invalidKey name key.shown)
  | none =>
    (key.explicit.find? fun k => !p.accepts k).map fun k => .invalidKey name (EntryKey.shown k)

/-- Start a load of a key, if it is needed or forced and no load with the same signature can be
joined. -/
def start (c : Cache κ ν) (name : String) (p : Policy κ ν) (key : Key κ) (inc : Includes)
    (force : Bool) : Change κ ν (Started κ) :=
  match c.rejection name p key with
  | some f => { cache := c, result := .rejected f }
  | none =>
    if !force && !c.isOutdated key inc then { cache := c, result := .fresh }
    else
      let signature : Signature κ := ⟨key, inc⟩
      match c.ledger.joinable? signature with
      | some seq => { cache := c, result := .joined seq }
      | none =>
        let c := c.draw
        let load : PendingLoad κ := ⟨signature, c.ledger.seq, c.targets key⟩
        { cache := c.withLedger fun l => l.startLoad signature ⟨load.seq, load.targets⟩
          events := [.loading key]
          result := .begun load }

/-- What writing the entries of a load leads to. -/
structure Written (κ ν : Type) [EntryKey κ] where
  /-- The cache with the entries written. -/
  cache : Cache κ ν
  /-- The keys written, in order. -/
  keys : List κ
  /-- Whether every merge succeeded. -/
  complete : Bool

/-- Write the entries of a load in order, passing over keys that were written after it started. -/
def writeLoaded (p : Policy κ ν) (now : Instant) (inc : Includes) (seq : Nat) :
    List (κ × ν) → Cache κ ν → Written κ ν
  | [], c => ⟨c, [], true⟩
  | (k, v) :: rest, c =>
    if c.ledger.isSuperseded k seq then writeLoaded p now inc seq rest c
    else
      match c.write? p k v with
      | none => ⟨c, [], false⟩
      | some c =>
        let w := writeLoaded p now inc seq rest
          (c.withLedger fun l => (l.stamp k seq).markLoadedBy (.key k) inc now seq)
        { w with keys := k :: w.keys }

/-- Record that the requested keys were loaded; those the answer lacks are loaded as absent. -/
def markRequested (now : Instant) (sig : Signature κ) (seq : Nat) (l : Ledger κ) : Ledger κ :=
  let l := sig.key.explicit.foldl
    (fun l k => if l.isSuperseded k seq then l else l.markLoadedBy (.key k) sig.includes now seq) l
  match sig.key.asAlias with
  | some a => l.markLoadedBy (.named a) sig.includes now seq
  | none => l

/-- Record the failure of a load against the requested keys, except those written meanwhile, and
against the alias. -/
def markFailures (f : Failure) (sig : Signature κ) (seq : Nat) (l : Ledger κ) : Ledger κ :=
  let l := sig.key.explicit.foldl
    (fun l k => if l.isSuperseded k seq then l else l.markFailed (.key k) f) l
  match sig.key.asAlias with
  | some a => l.markFailed (.named a) f
  | none => l

/-- Commit a load: write its entries, or record its failure. What was written or invalidated after
the load started stays as it is. Loading the alias for all removes what the answer lacks. -/
def commit (c : Cache κ ν) (name : String) (p : Policy κ ν) (now : Instant)
    (load : PendingLoad κ) (answer : Except Cause (List (κ × ν))) : Change κ ν Committed :=
  let sig := load.signature
  let seq := load.seq
  let c := c.withLedger fun l => l.finishLoad sig seq load.targets
  match answer with
  | .error cause =>
    let f : Failure := .load name sig.key.shown cause
    { cache := (c.withLedger (markFailures f sig seq)).settle
      events := [.failed sig.key f]
      result := .failure f }
  | .ok entries =>
    let removed := if sig.key.isAll then c.stale (entries.map Prod.fst) seq else []
    let w := writeLoaded p now sig.includes seq entries (c.removeAll removed seq)
    if w.complete then
      { cache := (w.cache.withLedger (markRequested now sig seq)).settle
        events := (if removed.isEmpty then [] else [.deleted removed]) ++ [.loaded sig.key w.keys]
        result := .success }
    else { cache := w.cache, result := .brokenOff }

/-- Clean up after a load that ended without a commit. -/
def abort (c : Cache κ ν) (name : String) (load : PendingLoad κ) : Change κ ν Failure :=
  { cache := (c.withLedger fun l => l.finishLoad load.signature load.seq load.targets).settle
    result := .aborted name load.signature.key.shown }

end Cache

end Larder
