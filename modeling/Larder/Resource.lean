import Larder.Cache.Basic
import Larder.Channel
import Larder.Uses

/-!
# Resources

A resource is a cache with a name, the policy of its entries, the uses its consumers registered, and
the channel on which it publishes its events. It is a collection of entries or a single value; the
two differ in what a consumer reads.
-/

namespace Larder

/-- What a consumer reads of a resource. -/
inductive Reading (ν : Type) where
  /-- The values of some entries. -/
  | many (values : List ν)
  /-- The single value. -/
  | one (value : ν)

/-- What a load comes to, for those who wait for it. -/
abbrev LoadResult := Except Failure Unit

/-- A cache with its name, its consumers and its subscribers. -/
structure Resource (κ ν : Type) [EntryKey κ] where
  /-- The name in messages. -/
  name : String
  /-- How entries are merged and which keys are accepted. -/
  policy : Policy κ ν := {}
  /-- Whether the resource holds one value only. -/
  isSingle : Bool := false
  /-- The entries. -/
  cache : Cache κ ν := {}
  /-- The registered uses. -/
  uses : Uses κ := {}
  /-- The published events. -/
  channel : Channel (Event κ) := {}

namespace Resource

variable {κ ν α : Type} [EntryKey κ]

/-- Take over a step of the cache and publish its events. -/
def apply (r : Resource κ ν) (change : Change κ ν α) : Resource κ ν × α :=
  ({ r with cache := change.cache, channel := r.channel.publishAll change.events }, change.result)

/-- What a consumer of a key reads: the values of a collection, or the single value if there is
one. -/
def read (r : Resource κ ν) (key : Key κ) : Option (Reading ν) :=
  if r.isSingle then r.cache.data.values.head?.map .one else some (.many (r.cache.getMany key))

/-- Write entries that are known to be right. -/
def setMany (r : Resource κ ν) (now : Instant) (entries : List (κ × ν)) : Resource κ ν × Bool :=
  r.apply (r.cache.setMany r.policy now entries)

/-- Make the resource hold exactly some entries. -/
def replace (r : Resource κ ν) (now : Instant) (entries : List (κ × ν)) : Resource κ ν × Bool :=
  r.apply (r.cache.replace r.policy now entries)

/-- Change a value in place. -/
def update (r : Resource κ ν) (k : κ) (f : ν → ν) : Resource κ ν × Bool :=
  r.apply (r.cache.update k f)

/-- Remove what a key stands for. -/
def delete (r : Resource κ ν) (key : Key κ) : Resource κ ν × List κ :=
  r.apply (r.cache.delete key)

/-- Remove everything. -/
def clear (r : Resource κ ν) : Resource κ ν := (r.apply r.cache.clear).1

/-- Mark everything outdated. -/
def markAllOutdated (r : Resource κ ν) : Resource κ ν := (r.apply r.cache.markAllOutdated).1

/-- Mark outdated what a key stands for. -/
def markOutdated (r : Resource κ ν) (key : Key κ) : Resource κ ν :=
  (r.apply (r.cache.markOutdated key)).1

/-- Evict entries nobody uses that were loaded at or before the cutoff. -/
def purge (r : Resource κ ν) (cutoff : Instant) : Resource κ ν × List κ :=
  r.apply (r.cache.purge r.uses.tracked cutoff)

/-- Evict entries nobody uses that were loaded `ttl` milliseconds ago or before; nothing if there is
no such time. -/
def purgeOlder (r : Resource κ ν) (now : Instant) (ttl : Int) : Option (Resource κ ν × List κ) :=
  (now.minusMillis? ttl).map r.purge

/-- Start a load, if it is needed or forced. -/
def start (r : Resource κ ν) (key : Key κ) (inc : Includes) (force : Bool) :
    Resource κ ν × Started κ :=
  r.apply (r.cache.start r.name r.policy key inc force)

/-- Commit a load. -/
def commit (r : Resource κ ν) (now : Instant) (load : PendingLoad κ)
    (answer : Except Cause (List (κ × ν))) : Resource κ ν × Committed :=
  r.apply (r.cache.commit r.name r.policy now load answer)

/-- Clean up after a load that ended without a commit. -/
def abort (r : Resource κ ν) (load : PendingLoad κ) : Resource κ ν × Failure :=
  r.apply (r.cache.abort r.name load)

/-- Register a use of a key. -/
def registerUse (r : Resource κ ν) (key : Key κ) (id : UseId) : Resource κ ν :=
  { r with uses := r.uses.register key id }

/-- Free a use of a key; the answer says whether it was registered. -/
def freeUse (r : Resource κ ν) (key : Key κ) (id : UseId) : Resource κ ν × Bool :=
  ({ r with uses := r.uses.free key id }, r.uses.holds key id)

end Resource

end Larder
