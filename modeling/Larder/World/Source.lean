import Larder.Api.Request
import Larder.Resource
import Larder.World.Service

/-!
# Sources

A resource loads its entries from a source. A *prompted* source is a stand-in whose loads are
answered by hand, each with a reply, or all with the same one; a *remote* source sends requests to
the service and joins the answers.

This module also holds what generic resources of JSON values bring along: the reading of replies, a
policy with a merge of its own, and the resolvers of their aliases.
-/

namespace Larder.World

/-- A reply to a prompted load. -/
inductive Reply where
  /-- The entries of a collection as an array of pairs, or the single value. -/
  | data (value : Json)
  /-- A store to take the requested entries from. -/
  | store (members : List (String × Json))
  /-- The load fails. -/
  | failure (cause : Cause)
  /-- The source breaks down. -/
  | breakdown

/-- How loads get their entries. -/
inductive Source (κ ν : Type) where
  /-- By a reply, given by hand or for all loads alike. -/
  | prompted (automatic : Option Reply)
      (interpret : Reply → Key κ → Includes → Except Cause (List (κ × ν)))
  /-- By requests to the service. -/
  | remote (requests : Key κ → Includes → List Api.Request)
      (entries : Answer → Except Api.ServiceError (List (κ × ν)))

/-- The cause recorded when a source breaks down. -/
def brokenSource : Cause := .plain "loader panicked"

/-- A pair of a key and a value, given as an array. -/
def pair? : Json → Option (String × Json)
  | .arr [.str k, v] => some (k, v)
  | _ => none

/-- A value of a store with a true member for each requested group of fields. -/
def withIncludes (inc : Includes) : Json → Json
  | .obj ms => .obj (inc.names.foldl (fun ms n => Json.placeMember n (.bool true) ms) ms)
  | j => j

/-- The entries a reply stands for in a collection. From a store, concrete keys take their own
entries, in order and without those that are absent; an alias takes the whole store. -/
def collectionEntries (reply : Reply) (key : Key String) (inc : Includes) :
    Except Cause (List (String × Json)) :=
  match reply with
  | .failure cause => .error cause
  | .breakdown => .error brokenSource
  | .data value => .ok ((value.items?.getD []).filterMap pair?)
  | .store members =>
    let chosen := match key with
      | .byAlias _ => members
      | _ => key.explicit.filterMap fun k => members.find? fun m => m.1 = k
    .ok (chosen.map fun m => (m.1, withIncludes inc m.2))

/-- The entry a reply stands for in a resource with a single value. -/
def singleEntry (reply : Reply) (_key : Key Sole) (_inc : Includes) :
    Except Cause (List (Sole × Json)) :=
  match reply with
  | .failure cause => .error cause
  | .breakdown => .error brokenSource
  | .data value => .ok [(.only, value)]
  | .store members => .ok [(.only, .obj members)]

/-- Members laid over others: names on both sides take the value on top. -/
def overlay (under top : List (String × Json)) : List (String × Json) :=
  top.foldl (fun ms m => Json.placeMember m.1 m.2 ms) under

/-- The policy of a guarded collection: objects are laid over each other, the text `boom` breaks the
merge down, and keys are neither empty nor start with an exclamation mark. -/
def guardedPolicy : Policy String Json where
  merge previous next :=
    match previous, next with
    | _, .str "boom" => none
    | some (.obj under), .obj top => some (.obj (overlay under top))
    | _, next => some next
  accepts k := !k.isEmpty && k.front != '!'

/-- What an alias of a generic collection stands for. -/
inductive AliasRule where
  /-- The cached keys that begin with the parameter. -/
  | beginning
  /-- The same keys always. -/
  | fixed (keys : List String)
  /-- The cached keys whose value has the parameter as its tag. -/
  | tagged
  /-- No keys. -/
  | nothing

/-- The resolver of a rule, for values with a tag. -/
def AliasRule.resolver {ν : Type} (rule : AliasRule) (tag : ν → Option String) :
    Resolver String ν := fun a data =>
  match rule with
  | .beginning => data.keys.filter fun k => (a.param.getD "").isPrefixOf k
  | .fixed keys => keys
  | .tagged => (data.entries.filter fun e => tag e.2 = a.param).map Prod.fst
  | .nothing => []

/-- The tag of a JSON value. -/
def jsonTag (j : Json) : Option String := (j.member? "tag").bind Json.str?

end Larder.World
