import Larder.Resource

/-!
# Bindings

A binding is what a consumer holds to follow one key of a resource. It registers its use of the key,
starts a load when the key is outdated, and is polled: a poll collects the result of the binding's
own last request, if it is there, and asks for the next load if one is needed.

A failure is kept until the consumer asks again or follows something else; while it is kept nothing
is loaded. Results of requests made for another key or other includes are never delivered.
-/

namespace Larder

/-- How a binding behaves. -/
structure BindingOptions where
  /-- An inactive binding starts no load. -/
  active : Bool := true
  /-- A frozen binding keeps what it has. -/
  freeze : Bool := false
  /-- A silent binding keeps its failures from the error context. -/
  silent : Bool := false
deriving DecidableEq, Repr

/-- A consumer's hold on one key of a resource. -/
structure Binding (κ : Type) where
  /-- What is followed, if anything. -/
  key : Option (Key κ) := none
  /-- The groups of fields asked for. -/
  includes : Includes := Includes.none
  /-- How the binding behaves. -/
  options : BindingOptions := {}
  /-- The registered use of the key. -/
  use : Option UseId := none
  /-- The number of the request whose result is awaited. -/
  request : Option Nat := none
  /-- The failure of the last request, until the consumer reacts. -/
  exception : Option Failure := none

/-- What a binding offers. -/
inductive BindingState (ν : Type) where
  /-- Nothing to follow, or inactive. -/
  | idle
  /-- Data is not there yet. -/
  | loading
  /-- Data, which may be outdated while it is loaded again. -/
  | loaded (data : Reading ν)
  /-- The last request failed. -/
  | failed (failure : Failure)

/-- What a consumer is told. -/
inductive Notice (ν : Type) where
  /-- A load of the binding finished with this data. -/
  | data (data : Reading ν)
  /-- A load of the binding failed. -/
  | failure (f : Failure)
  /-- A failure that the error context receives. -/
  | caught (f : Failure)

namespace Binding

variable {κ ν : Type} [EntryKey κ]

/-! ## What a binding offers -/

/-- Whether data for the key and the includes is there. -/
def isReady (b : Binding κ) (r : Resource κ ν) : Bool :=
  match b.key with
  | some key => r.cache.isLoaded key b.includes
  | none => false

/-- Whether a request of the binding or any load of its key runs. -/
def isLoading (b : Binding κ) (r : Resource κ ν) : Bool :=
  b.request.isSome ||
    match b.key with
    | some key => r.cache.isLoading key
    | none => false

/-- Whether a load of the key would fetch. -/
def isOutdated (b : Binding κ) (r : Resource κ ν) : Bool :=
  match b.key with
  | some key => r.cache.isOutdated key b.includes
  | none => false

/-- What the binding offers now. -/
def state (b : Binding κ) (r : Resource κ ν) : BindingState ν :=
  match b.key with
  | none => .idle
  | some key =>
    match b.request, b.exception with
    | none, some e => .failed e
    | _, _ =>
      match (if r.cache.isLoaded key b.includes then r.read key else none) with
      | some data => .loaded data
      | none =>
        if b.request.isSome || r.cache.isLoading key || b.options.active then .loading else .idle

/-- The data of the state, if it has any. -/
def data? (b : Binding κ) (r : Resource κ ν) : Option (Reading ν) :=
  match b.state r with
  | .loaded data => some data
  | _ => none

/-! ## Following -/

/-- Free the registered use. -/
def release (b : Binding κ) (r : Resource κ ν) : Binding κ × Resource κ ν :=
  match b.key, b.use with
  | some key, some id => ({ b with use := none }, (r.freeUse key id).1)
  | _, _ => ({ b with use := none }, r)

/-- Follow another key, or none; `id` is the use registered for it. Following the same key again
changes nothing. -/
def setKey (b : Binding κ) (r : Resource κ ν) (key : Option (Key κ)) (id : UseId) :
    Binding κ × Resource κ ν :=
  if b.key = key ∧ (key.isNone ∨ b.use.isSome) then (b, r)
  else
    let (b, r) := b.release r
    let b := { b with key := key, request := none, exception := none }
    match key with
    | none => (b, r)
    | some k => ({ b with use := some id }, r.registerUse k id)

/-- Ask for other groups of fields. Asking for the same ones changes nothing. -/
def setIncludes (b : Binding κ) (inc : Includes) : Binding κ :=
  if b.includes = inc then b
  else { b with includes := inc, request := none, exception := none }

/-- Behave otherwise. -/
def setOptions (b : Binding κ) (options : BindingOptions) : Binding κ :=
  { b with options := options }

/-! ## Requests -/

/-- What a binding does in one step. -/
structure Move (κ ν : Type) [EntryKey κ] where
  /-- The binding afterwards. -/
  binding : Binding κ
  /-- The resource afterwards. -/
  resource : Resource κ ν
  /-- What the consumer is told, in order. -/
  notices : List (Notice ν) := []
  /-- The load the binding asked for, if it did; its result answers the binding's request. -/
  started : Option (Started κ) := none

/-- Ask for a load of the key; `request` is the number of the request. Without a key nothing
happens. -/
def ask (b : Binding κ) (r : Resource κ ν) (force : Bool) (request : Nat) : Move κ ν :=
  match b.key with
  | none => { binding := b, resource := r }
  | some key =>
    let (r, started) := r.start key b.includes force
    { binding := { b with request := some request }, resource := r, started := some started }

/-- Whether a poll may ask for a load. -/
def canLoad (b : Binding κ) (r : Resource κ ν) : Bool :=
  match b.key with
  | none => false
  | some key =>
    b.options.active && !b.options.freeze && b.request.isNone && b.exception.isNone
      && r.cache.isOutdated key b.includes

/-- Keep a failure and tell it: the consumer always, the error context unless the binding is
silent. -/
def fail (b : Binding κ) (f : Failure) : Binding κ × List (Notice ν) :=
  ({ b with exception := some f }, .failure f :: if b.options.silent then [] else [.caught f])

/-- What the consumer is told of data: it has to be there. -/
def dataNotice (r : Resource κ ν) (key : Option (Key κ)) : List (Notice ν) :=
  match key.bind r.read with
  | some data => [.data data]
  | none => []

/-- Collect the result of the binding's request, if it is there. -/
def collect (b : Binding κ) (r : Resource κ ν) (result : Option LoadResult) :
    Binding κ × List (Notice ν) :=
  match result with
  | none => (b, [])
  | some (.ok ()) =>
    ({ b with request := none, exception := none }, dataNotice r b.key)
  | some (.error f) => { b with request := none }.fail f

/-- Collect the result of the binding's request, given in `result` once it is there, and ask for a
load if one is needed. The second part says whether anything changed. -/
def poll (b : Binding κ) (r : Resource κ ν) (result : Option LoadResult) (request : Nat) :
    Move κ ν × Bool :=
  let (c, notices) := b.collect r result
  if c.canLoad r then
    let move := c.ask r false request
    ({ move with notices := notices }, true)
  else ({ binding := c, resource := r, notices := notices }, result.isSome)

/-- A poll when the task that was to bring the result of the binding's request is gone: the request is
given up, and a load is asked for if one is needed. -/
def pollLost (b : Binding κ) (r : Resource κ ν) (request : Nat) : Move κ ν × Bool :=
  (({ b with request := none }.poll r none request).1, true)

/-- Forget the failure and load again if the key is outdated. -/
def retry (b : Binding κ) (r : Resource κ ν) (request : Nat) : Move κ ν :=
  { b with exception := none }.ask r false request

/-- Forget the failure and load again in any case. -/
def reload (b : Binding κ) (r : Resource κ ν) (request : Nat) : Move κ ν :=
  { b with exception := none }.ask r true request

/-! ## Waiting

A consumer may also wait for the data in place of polling. -/

/-- Load the key if needed and wait for the result. Without a key there is nothing to wait for. -/
def beginResolve (b : Binding κ) (r : Resource κ ν) :
    Binding κ × Resource κ ν × Option (Started κ) :=
  match b.key with
  | none => (b, r, none)
  | some key =>
    let (r, started) := r.start key b.includes false
    ({ b with request := none }, r, some started)

/-- What waiting comes to. -/
def endResolve (b : Binding κ) (r : Resource κ ν) (result : LoadResult) :
    Binding κ × List (Notice ν) × Except Failure (Option (Reading ν)) :=
  match result with
  | .error f =>
    let (b, notices) := b.fail f
    (b, notices, .error f)
  | .ok () => ({ b with exception := none }, dataNotice r b.key, .ok (b.key.bind r.read))

end Binding

end Larder
