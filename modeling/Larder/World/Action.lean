import Larder.World.Run

/-!
# Acting on a world

An action is something a user of the resources does; its outcome is what the user gets back at once.
After an action the tasks it woke take their turns, and the report of the step tells what happened:
calls to sources, notices to consumers, handles that came to an end, and events.
-/

namespace Larder.World

/-- How a waiting call is chosen. -/
inductive CallChoice where
  /-- By its number. -/
  | number (n : Nat)
  /-- By its place among the waiting calls, counted round and round. -/
  | place (n : Nat)

/-- What can be done with a resource. -/
inductive ResourceAction where
  /-- Load a key, by force or if it is outdated. -/
  | load (key : Key String) (includes : Includes) (force : Bool)
  /-- Ask for the freshness of a key. -/
  | check (key : Key String) (includes : Includes)
  /-- Mark a key outdated. -/
  | markOutdated (key : Key String)
  /-- Read a key. -/
  | read (key : Key String)
  /-- Ask for the name. -/
  | name
  /-- Register a use under a label. -/
  | use (label : String) (key : Key String)
  /-- Free the use under a label. -/
  | free (label : String) (key : Key String)
  /-- Ask whether the use under a label is registered. -/
  | hasUse (label : String)
  /-- Ask for the uses of a key. -/
  | usesOf (key : Key String)
  /-- Ask for the keys in use. -/
  | tracked
  /-- Bind a key under a label. -/
  | bind (label : String) (key : Option (Key String)) (includes : Includes)
      (options : BindingOptions) (callbacks recordsCaught : Bool)
  /-- Subscribe under a name. -/
  | subscribe (id : String)
  /-- The value of a concrete key. -/
  | get (key : String)
  /-- The values of a key. -/
  | getMany (key : Key String)
  /-- Whether a concrete key has a value. -/
  | contains (key : String)
  /-- The cached keys. -/
  | keys
  /-- The cached values. -/
  | values
  /-- How many values there are. -/
  | size
  /-- The concrete keys a key stands for. -/
  | resolve (key : Key String)
  /-- The record of a concrete key. -/
  | metadata (key : String)
  /-- Write entries. -/
  | setMany (entries : List (String × Json))
  /-- Hold exactly some entries. -/
  | replace (entries : List (String × Json))
  /-- Change a value in place. -/
  | update (key : String) (value : Json)
  /-- Remove a key. -/
  | delete (key : Key String)
  /-- Remove everything. -/
  | clear
  /-- Mark everything outdated. -/
  | markAllOutdated
  /-- Evict old entries nobody uses. -/
  | purge (ttl : Int)
  /-- Do so again and again. -/
  | spawnPurge (interval : Nat) (ttl : Int)
  /-- Register an alias. -/
  | registerAlias (name : String) (rule : AliasRule)
  /-- The value and the record of all cached keys and some more. -/
  | snapshot (keys : List String)
  /-- The single value. -/
  | single
  /-- The single value with its record. -/
  | singleSnapshot
  /-- Keep the resource in step with another. -/
  | sync (source : String)
  /-- Whether the session may be used. -/
  | isValid
  /-- The value of a setting. -/
  | setting (key : String)
  /-- Run an operation on teams. -/
  | operate (call : Teams.Call)
  /-- Drop the marks of new teams. -/
  | cleanNewFlags
  /-- The teams in the order in which they are shown. -/
  | sorted

/-- What can be done with a binding. -/
inductive BindingAction where
  /-- Poll it. -/
  | poll
  /-- Follow another key. -/
  | setKey (key : Option (Key String))
  /-- Ask for other groups of fields. -/
  | setIncludes (includes : Includes)
  /-- Behave otherwise. -/
  | setOptions (options : BindingOptions)
  /-- Try again after a failure. -/
  | retry
  /-- Load again in any case. -/
  | reload
  /-- Wait for the data. -/
  | resolve
  /-- Let go of it. -/
  | drop
  /-- Look at it. -/
  | view

/-- What can be done. -/
inductive Action where
  /-- Some actions with no turns between them. -/
  | batch (actions : List Action)
  /-- Nothing but turns. -/
  | settle
  /-- Move the clock; forwards, timers move too. -/
  | advance (millis : Int)
  /-- Answer a waiting call of a prompted source. -/
  | finish (resource : Option String) (choice : CallChoice) (reply : Reply)
  /-- Set the automatic reply of a prompted source. -/
  | backend (resource : Option String) (reply : Option Reply)
  /-- Prepare answers of the service. -/
  | prepare (answers : List (String × List Prepared))
  /-- Let the oldest request at a gate go on. -/
  | release (gate : String)
  /-- Stop waiting under a handle. -/
  | cancel (h : Nat)
  /-- Everything a subscriber has not seen. -/
  | receive (id : String)
  /-- Let go of a resource. -/
  | dropResource (resource : Option String)
  /-- Do something with a resource. -/
  | onResource (resource : Option String) (action : ResourceAction)
  /-- Do something with a binding. -/
  | onBinding (label : String) (action : BindingAction)
  /-- Something that cannot be done. -/
  | unknown (resource : Option String)

/-- An event as it is reported. -/
inductive EventReport where
  /-- So many events are lost. -/
  | lagged (lost : Nat)
  /-- An event. -/
  | event (e : Event String)

/-- A binding as it is seen. -/
structure BindingView where
  /-- What it offers. -/
  state : BindingState Json
  /-- Whether data is there. -/
  ready : Bool
  /-- Whether anything loads. -/
  loading : Bool
  /-- Whether a load would fetch. -/
  outdated : Bool
  /-- The failure that is kept. -/
  failure : Option Failure
  /-- The name of its resource. -/
  resource : String
  /-- What it follows. -/
  key : Option (Key String)
  /-- The groups of fields it asks for. -/
  includes : Includes
  /-- How it behaves. -/
  options : BindingOptions

/-- What an action gives back at once. -/
inductive Outcome where
  /-- Nothing. -/
  | nothing
  /-- Yes or no. -/
  | truth (b : Bool)
  /-- A text. -/
  | text (s : String)
  /-- A value as it is shown. -/
  | json (j : Json)
  /-- A value if there is one. -/
  | value (v : Option Json)
  /-- Some values. -/
  | values (vs : List Json)
  /-- Concrete keys. -/
  | names (keys : List String)
  /-- Keys. -/
  | keys (keys : List (Key String))
  /-- A number of values. -/
  | size (n : Nat)
  /-- A record. -/
  | record (m : Option EntryMeta)
  /-- A handle to wait under. -/
  | handle (h : Nat)
  /-- The call that was answered. -/
  | call (n : Option Nat)
  /-- The freshness of a key. -/
  | freshness (outdated loaded loading : Bool) (failure : Option Failure)
  /-- The uses of a key. -/
  | uses (used : Bool) (count : Nat)
  /-- Keys with their values and records. -/
  | snapshot (entries : List (String × Option Json × Option EntryMeta))
  /-- A value and its record. -/
  | singleSnapshot (value : Option Json) (record : Option EntryMeta)
  /-- Events of a resource. -/
  | events (resource : String) (reports : List EventReport)
  /-- A binding. -/
  | binding (view : BindingView)
  /-- The outcomes of a batch. -/
  | batch (outcomes : List Outcome)
  /-- There is no such resource. -/
  | noResource
  /-- There is no use under that label. -/
  | noUse
  /-- There is no binding under that label. -/
  | noBinding
  /-- The binding is lent away. -/
  | busy
  /-- This cannot be done. -/
  | unknown
  /-- A merge or a calculation broke down. -/
  | brokenDown

/-- What happened in a step. -/
structure Report where
  /-- What the action gave back. -/
  outcome : Outcome
  /-- Calls to sources and requests, in order. -/
  calls : List CallRecord
  /-- What consumers were told, in order. -/
  notices : List NoticeRecord
  /-- The handles that came to an end, by number. -/
  finished : List (Nat × HandleResult)
  /-- For each resource its new events. -/
  events : List (String × List EventReport)

/-! ## Resources -/

/-- The outcome of an operation on the entries of a slot that only some sorts of resources know. -/
def entryAction {κ ν : Type} [EntryKey κ] [Valued ν] (now : Instant) (s : Slot κ ν) :
    ResourceAction → Option (Slot κ ν × Outcome)
  | .get k => some (s, .value ((s.resource.cache.data.get? (EntryKey.ofName k)).map Valued.toJson))
  | .getMany key =>
    some (s, .values ((s.resource.cache.getMany (key.map EntryKey.ofName)).map Valued.toJson))
  | .contains k => some (s, .truth (s.resource.cache.data.contains (EntryKey.ofName k)))
  | .keys => some (s, .names (s.resource.cache.data.keys.map EntryKey.name))
  | .values => some (s, .values (s.resource.cache.data.values.map Valued.toJson))
  | .size => some (s, .size s.resource.cache.data.size)
  | .resolve key =>
    some (s, .names ((s.resource.cache.resolve (key.map EntryKey.ofName)).map EntryKey.name))
  | .metadata k => some (s, .record (s.resource.cache.ledger.meta? (.key (EntryKey.ofName k))))
  | .setMany entries =>
    let (r, whole) := s.resource.setMany now
      (entries.map fun e => (EntryKey.ofName e.1, Valued.ofJson e.2))
    some ({ s with resource := r }, if whole then .nothing else .brokenDown)
  | .replace entries =>
    let (r, whole) := s.resource.replace now
      (entries.map fun e => (EntryKey.ofName e.1, Valued.ofJson e.2))
    some ({ s with resource := r }, if whole then .nothing else .brokenDown)
  | .update k v =>
    let (r, found) := s.resource.update (EntryKey.ofName k) fun _ => Valued.ofJson v
    some ({ s with resource := r }, .truth found)
  | .delete key =>
    let (r, removed) := s.resource.delete (key.map EntryKey.ofName)
    some ({ s with resource := r }, .names (removed.map EntryKey.name))
  | .clear => some ({ s with resource := s.resource.clear }, .nothing)
  | .markAllOutdated => some ({ s with resource := s.resource.markAllOutdated }, .nothing)
  | .purge ttl =>
    match s.resource.purgeOlder now ttl with
    | some (r, evicted) => some ({ s with resource := r }, .names (evicted.map EntryKey.name))
    | none => some (s, .brokenDown)
  | .snapshot keys =>
    let all := (s.resource.cache.data.keys.map EntryKey.name ++ keys).eraseDups
    some (s, .snapshot (all.map fun k =>
      (k, (s.resource.cache.data.get? (EntryKey.ofName k)).map Valued.toJson,
        s.resource.cache.ledger.meta? (.key (EntryKey.ofName k)))))
  | .single => some (s, .value (s.resource.cache.data.values.head?.map Valued.toJson))
  | .singleSnapshot =>
    some (s, .singleSnapshot (s.resource.cache.data.values.head?.map Valued.toJson)
      (s.resource.cache.ledger.meta? (.key (EntryKey.ofName "()"))))
  | _ => none

/-- The outcome of an operation that every resource knows and that concerns its slot alone. -/
def commonAction {κ ν : Type} [EntryKey κ] [Valued ν] (s : Slot κ ν) :
    ResourceAction → Option (Slot κ ν × Outcome)
  | .check key inc =>
    let k : Key κ := key.map EntryKey.ofName
    let c := s.resource.cache
    some (s, .freshness (c.isOutdated k inc) (c.isLoaded k inc) (c.isLoading k) (c.failureOf k))
  | .markOutdated key =>
    some ({ s with resource := s.resource.markOutdated (key.map EntryKey.ofName) }, .nothing)
  | .read key =>
    some (s, match s.resource.read (key.map EntryKey.ofName) with
      | some reading => .json (readingJson reading)
      | none => .nothing)
  | .name => some (s, .text s.resource.name)
  | .usesOf key =>
    let k : Key κ := key.map EntryKey.ofName
    some (s, .uses (s.resource.uses.isUsed k) (s.resource.uses.count k))
  | .tracked => some (s, .keys (s.resource.uses.tracked.map fun k => k.map EntryKey.name))
  | _ => none

/-- Register the use of a key under a label. -/
def useKey (w : World) (i : Nat) (label : String) (key : Key String) : World × Outcome :=
  let (w, id) := w.draw
  let (w, ()) := w.change i () fun s =>
    ({ s with resource := s.resource.registerUse (key.map EntryKey.ofName) id }, ())
  ({ w with useLabels := w.useLabels.set label id }, .nothing)

/-- Free the use under a label. -/
def freeKey (w : World) (i : Nat) (label : String) (key : Key String) : World × Outcome :=
  match w.useLabels.get? label with
  | none => (w, .noUse)
  | some id =>
    let (w, freed) := w.change i false fun s =>
      let (r, freed) := s.resource.freeUse (key.map EntryKey.ofName) id
      ({ s with resource := r }, freed)
    (w, .truth freed)

/-- Ask whether the use under a label is registered. -/
def hasUse (w : World) (i : Nat) (label : String) : World × Outcome :=
  match w.useLabels.get? label with
  | none => (w, .noUse)
  | some id =>
    let (w, has) := w.change i false fun s => (s, s.resource.uses.hasId id)
    (w, .truth has)

/-- Let go of the binding in a place. One that is lent away is let go of when it comes back. -/
def dropCell (w : World) (i cell : Nat) : World :=
  let (w, ()) := w.change i () fun s =>
    let r := match s.cells.get? cell with
      | some ⟨_, some b, _, _⟩ => (b.release s.resource).2
      | _ => s.resource
    ({ s with resource := r, cells := s.cells.erase cell }, ())
  w.endSyncs

/-- Bind a key under a label. A binding that had the label before is let go of. -/
def bindKey (w : World) (i : Nat) (label : String) (key : Option (Key String)) (inc : Includes)
    (options : BindingOptions) (callbacks recordsCaught : Bool) : World × Outcome :=
  let (w, id) := w.draw
  let (w, cell) := w.draw
  let (w, ()) := w.change i () fun s =>
    let (b, r) := ({} : Binding _).setKey s.resource (key.map fun k => k.map EntryKey.ofName) id
    let b := { b with includes := inc, options := options }
    ({ s with
        resource := r
        cells := s.cells.set cell ⟨label, some b, callbacks, recordsCaught⟩ }, ())
  let old := w.labels.get? label
  let w := { w with labels := w.labels.set label (i, cell) }
  match old with
  | some (j, oldCell) => (w.dropCell j oldCell, .nothing)
  | none => (w, .nothing)

/-- Wait for a load under a new handle. -/
def loadKey (w : World) (i : Nat) (key : Key String) (inc : Includes) (force : Bool) :
    World × Outcome :=
  let (w, wait) := w.ask i fun s => s.ask i (key.map EntryKey.ofName) inc force
  let h := w.handleCount
  let w := { w with handleCount := h + 1, handles := w.handles.set h (.load wait) }
  (w.wake (.handle h), .handle h)

/-- Keep a resource in step with another. -/
def syncTo (w : World) (target source : Nat) : World :=
  let position := match w.holding? source with
    | some h => h.published
    | none => 0
  let (w, n) := w.draw
  { w with syncs := w.syncs.set n { source := source, target := target, position := position } }.wake
    (.sync n)

/-- Purge a resource again and again. -/
def purgeRecurrently (w : World) (i interval : Nat) (ttl : Int) : World :=
  let (w, n) := w.draw
  { w with purges := w.purges.set n { slot := i, interval := interval, ttl := ttl } }.wake (.purge n)

/-- Run an operation on teams under a new handle. -/
def operate (w : World) (i : Nat) (call : Teams.Call) : World × Nat :=
  let h := w.handleCount
  ({ w with
      handleCount := h + 1
      handles := w.handles.set h .operation
      operations := w.operations.set h ⟨i, .unstarted call⟩ }.wake (.operation h), h)

/-- Whether an action is one that resources with a single value know. -/
def ResourceAction.forSingle : ResourceAction → Bool
  | .single | .singleSnapshot | .setMany _ | .clear | .metadata _ => true
  | _ => false

/-- Whether an action is one that collections know. -/
def ResourceAction.forCollection : ResourceAction → Bool
  | .single | .singleSnapshot => false
  | _ => true

/-- Do something with the resource in a slot. -/
def actOn (w : World) (i : Nat) (action : ResourceAction) : World × Outcome :=
  let now := w.clock
  match action, w.holding? i with
  | _, none => (w, .noResource)
  | .load key inc force, _ => w.loadKey i key inc force
  | .use label key, _ => w.useKey i label key
  | .free label key, _ => w.freeKey i label key
  | .hasUse label, _ => w.hasUse i label
  | .bind label key inc options callbacks recordsCaught, _ =>
    w.bindKey i label key inc options callbacks recordsCaught
  | .subscribe id, some h =>
    ({ w with subscribers := w.subscribers.set id (i, h.published) }, .nothing)
  | .isValid, some (.session s) => (w, .truth (Server.isValid s.resource))
  | .setting key, some (.settings s) => (w, .value (Server.setting? s.resource key))
  | .operate call, some (.teams _) =>
    let (w, h) := w.operate i call
    (w, .handle h)
  | .cleanNewFlags, some (.teams s) =>
    (w.put i (.teams { s with resource := Teams.cleanNewFlags s.resource }), .nothing)
  | .sorted, some (.teams s) =>
    (w, .values ((Teams.sorted s.resource).map Valued.toJson))
  | .spawnPurge interval ttl, some (.collection _) | .spawnPurge interval ttl, some (.teams _) =>
    (w.purgeRecurrently i interval ttl, .nothing)
  | .registerAlias name rule, some (.collection s) =>
    let r := { s.resource with cache := s.resource.cache.register name (rule.resolver Valued.tag) }
    (w.put i (.collection { s with resource := r }), .nothing)
  | .registerAlias name rule, some (.teams s) =>
    let r := { s.resource with cache := s.resource.cache.register name (rule.resolver Valued.tag) }
    (w.put i (.teams { s with resource := r }), .nothing)
  | .sync source, some (.single _) | .sync source, some (.session _)
  | .sync source, some (.settings _) =>
    match w.slotOf? (some source) with
    | some j => (w.syncTo i j, .nothing)
    | none => (w, .noResource)
  | action, some h =>
    let isCollection := match h with
      | .collection _ | .teams _ => true
      | _ => false
    let known := if isCollection then action.forCollection else action.forSingle
    w.change i .unknown fun s =>
      match commonAction s action with
      | some r => r
      | none =>
        match (if known then entryAction now s action else none) with
        | some r => r
        | none => (s, .unknown)

/-! ## Bindings -/

/-- What an action on a binding leads to. -/
structure BindingStep (κ ν : Type) [EntryKey κ] where
  /-- The binding afterwards. -/
  binding : Binding κ
  /-- The resource afterwards. -/
  resource : Resource κ ν
  /-- What the consumer is told. -/
  notices : List (Notice ν) := []
  /-- The load the binding asked for. -/
  started : Option (Started κ) := none
  /-- What is given back. -/
  outcome : Outcome := .nothing

/-- What is seen of a binding. -/
def viewOf {κ ν : Type} [EntryKey κ] [Valued ν] (b : Binding κ) (r : Resource κ ν) : BindingView :=
  { state := match b.state r with
      | .idle => .idle
      | .loading => .loading
      | .loaded data => .loaded (.one (readingJson data))
      | .failed f => .failed f
    ready := b.isReady r
    loading := b.isLoading r
    outdated := b.isOutdated r
    failure := b.exception
    resource := r.name
    key := b.key.map fun k => k.map EntryKey.name
    includes := b.includes
    options := b.options }

/-- Do something with a binding; `id` and `request` are numbers not used before. -/
def bindingStep {κ ν : Type} [EntryKey κ] [Valued ν] (s : Slot κ ν) (b : Binding κ)
    (id request : Nat) : BindingAction → BindingStep κ ν
  | .poll =>
    let (m, changed) := b.poll s.resource (b.request.bind s.mail.get?) request
    ⟨m.binding, m.resource, m.notices, m.started, .truth changed⟩
  | .setKey key =>
    let (b, r) := b.setKey s.resource (key.map fun k => k.map EntryKey.ofName) id
    { binding := b, resource := r }
  | .setIncludes inc => { binding := b.setIncludes inc, resource := s.resource }
  | .setOptions options => { binding := b.setOptions options, resource := s.resource }
  | .retry =>
    let m := b.retry s.resource request
    { binding := m.binding, resource := m.resource, started := m.started }
  | .reload =>
    let m := b.reload s.resource request
    { binding := m.binding, resource := m.resource, started := m.started }
  | .view =>
    { binding := b, resource := s.resource, outcome := .binding (viewOf b s.resource) }
  | .resolve | .drop => { binding := b, resource := s.resource }

/-- What a step of a binding in its place leads to. -/
structure CellStep where
  /-- What is given back. -/
  outcome : Outcome
  /-- What the consumer is told, for the records. -/
  notices : World → World
  /-- What the binding waits for, and the load that has to be run. -/
  asked : Option (Wait × Option Nat)

/-- Do something with the binding in a place. -/
def cellStep {κ ν : Type} [EntryKey κ] [Valued ν] (i cell id request : Nat)
    (action : BindingAction) (s : Slot κ ν) : Slot κ ν × CellStep :=
  match s.cells.get? cell with
  | some terms =>
    match terms.binding with
    | none => (s, ⟨.busy, fun w => w, none⟩)
    | some b =>
      let step := bindingStep s b id request action
      let s := { s with
        resource := step.resource
        cells := s.cells.set cell { terms with binding := some step.binding } }
      let (s, asked) := match step.started with
        | none => (s, none)
        | some started =>
          let (s, wait, begun) := s.take i started
          (s, some (wait, begun))
      (s, ⟨step.outcome, fun w => w.tell terms step.notices, asked⟩)
  | none => (s, ⟨.noBinding, fun w => w, none⟩)

/-- Lend a binding away to wait for its data under a handle. -/
def lend {κ ν : Type} [EntryKey κ] (cell h : Nat) (s : Slot κ ν) : Slot κ ν × Bool :=
  match s.cells.get? cell with
  | some terms =>
    match terms.binding with
    | none => (s, false)
    | some b =>
      ({ s with
          cells := s.cells.set cell { terms with binding := none }
          resolving := s.resolving.set h ⟨cell, terms, b, none⟩ }, true)
  | none => (s, false)

/-- Do something with the binding under a label. -/
def actOnBinding (w : World) (label : String) (action : BindingAction) : World × Outcome :=
  match w.labels.get? label with
  | none =>
    (w, match action with
      | .drop => .truth false
      | _ => .noBinding)
  | some (i, cell) =>
    match action with
    | .drop =>
      ({ w with labels := w.labels.erase label }.dropCell i cell, .truth true)
    | .resolve =>
      let h := w.handleCount
      let (w, lent) := w.change i false fun s => lend cell h s
      if lent then
        ({ w with handleCount := h + 1, handles := w.handles.set h (.resolve i) }.wake (.resolve h),
          .handle h)
      else (w, .busy)
    | action =>
      let (w, id) := w.draw
      let (w, request) := w.draw
      match w.holding? i with
      | none => (w, .noResource)
      | some holding =>
        let (holding, step) := holding.change fun s => cellStep i cell id request action s
        let w := match step.asked with
          | some (_, some seq) => w.wake (.load i seq)
          | _ => w
        let w := step.notices (w.put i holding)
        match step.asked with
        | some (wait, _) =>
          ({ w with couriers := w.couriers.set request ⟨i, wait⟩ }.wake (.courier request),
            step.outcome)
        | none => (w, step.outcome)

/-! ## Everything else -/

/-- The calls of a prompted source that wait for a reply, by number, with their loads. -/
def waitingCalls {κ ν : Type} [EntryKey κ] (s : Slot κ ν) : List (Nat × Nat) :=
  s.loads.filterMap fun t =>
    match t.stage with
    | .waiting call => some (call, t.load.seq)
    | _ => none

/-- Answer a waiting call of a slot: its number and the load to wake. -/
def answerCall {κ ν : Type} [EntryKey κ] (choice : CallChoice) (reply : Reply) (s : Slot κ ν) :
    Slot κ ν × Option (Nat × Nat) :=
  let waiting := (waitingCalls s).mergeSort fun a b => a.1 ≤ b.1
  let chosen := match choice with
    | .number n => waiting.find? fun c => c.1 = n
    | .place n => if waiting.isEmpty then none else (waiting.drop (n % waiting.length)).head?
  match chosen, s.source with
  | some (call, seq), .prompted _ interpret =>
    (s.modifyLoad seq fun t =>
      { t with stage := .answered (interpret reply t.load.signature.key t.load.signature.includes) },
      some (call, seq))
  | _, _ => (s, none)

/-- Set the automatic reply of a slot. -/
def setAutomatic {κ ν : Type} [EntryKey κ] (reply : Option Reply) (s : Slot κ ν) : Slot κ ν :=
  match s.source with
  | .prompted _ interpret => { s with source := .prompted reply interpret }
  | .remote .. => s

/-- Events of a slot behind a position, as they are reported. -/
def reportsOf (h : Holding) (position : Nat) : List EventReport :=
  h.visit fun s =>
    let (lost, events) := s.resource.channel.drain position
    (if lost > 0 then [.lagged lost] else [])
      ++ events.map fun e => .event (e.map EntryKey.name)

/-- Everything a subscriber has not seen. -/
def receive (w : World) (id : String) : World × Outcome :=
  match w.subscribers.get? id with
  | none => (w, .nothing)
  | some (i, position) =>
    match w.holding? i with
    | none => (w, .nothing)
    | some h =>
      ({ w with subscribers := w.subscribers.set id (i, h.published) },
        .events (w.nameOf i) (reportsOf h position))

/-- Move the clock. Forwards, timers move too, and purges that are due are woken in the order in
which they are. -/
def advance (w : World) (millis : Int) : World :=
  let w := { w with clock := w.clock.plusMillis millis }
  if millis ≤ 0 then w
  else
    let w := { w with timer := w.timer + millis.toNat }
    let due := w.purges.entries.filterMap fun (e : Nat × PurgeTask) =>
      match e.2.due with
      | some d => if d ≤ w.timer then some (d, e.1) else none
      | none => none
    w.wakeAll ((due.mergeSort fun a b => a.1 ≤ b.1).map fun d => .purge d.2)

/-- Stop waiting under a handle. Loads and operations go on; a binding that waited is let go of. -/
def cancel (w : World) (h : Nat) : World × Bool :=
  match w.handles.get? h with
  | none => (w, false)
  | some handle =>
    let w := { w with handles := w.handles.erase h, queue := w.queue.filter fun t => ¬ t = .handle h }
    match handle with
    | .resolve i =>
      let (w, ()) := w.change i () fun s =>
        match s.resolving.get? h with
        | some ⟨_, _, b, _⟩ =>
          let (_, r) := b.release s.resource
          ({ s with resource := r, resolving := s.resolving.erase h }, ())
        | none => (s, ())
      (w.endSyncs, true)
    | _ => (w, true)

/-- Let go of a resource. -/
def dropResource (w : World) (i : Nat) : World :=
  let (w, ()) := w.change i () fun s => ({ s with held := false }, ())
  w.endSyncs

mutual

/-- Do something, without any turns. -/
def act (w : World) : Action → World × Outcome
  | .batch actions =>
    let (w, outcomes) := actAll w actions
    (w, .batch outcomes)
  | .settle => (w, .nothing)
  | .advance millis => (w.advance millis, .nothing)
  | .finish resource choice reply =>
    match w.slotOf? resource with
    | none => (w, .noResource)
    | some i =>
      let (w, answered) := w.change i none fun s => answerCall choice reply s
      match answered with
      | some (call, seq) => (w.wake (.load i seq), .call (some call))
      | none => (w, .call none)
  | .backend resource reply =>
    match w.slotOf? resource with
    | none => (w, .noResource)
    | some i => ((w.change i () fun s => (setAutomatic reply s, ())).1, .nothing)
  | .prepare answers => ({ w with service := w.service.prepare answers }, .nothing)
  | .release gate =>
    let (w, released) := w.release gate
    (w, .truth released)
  | .cancel h =>
    let (w, pending) := w.cancel h
    (w, .truth pending)
  | .receive id => w.receive id
  | .dropResource resource =>
    match w.slotOf? resource with
    | none => (w, .truth false)
    | some i => (w.dropResource i, .truth true)
  | .onResource resource action =>
    match w.slotOf? resource with
    | none => (w, .noResource)
    | some i => w.actOn i action
  | .onBinding label action => w.actOnBinding label action
  | .unknown resource =>
    match w.slotOf? resource with
    | none => (w, .noResource)
    | some _ => (w, .unknown)

/-- Do some things in order. -/
def actAll (w : World) : List Action → World × List Outcome
  | [] => (w, [])
  | a :: rest =>
    let (w, o) := act w a
    let (w, os) := actAll w rest
    (w, o :: os)

end

/-- The report of what happened, and the world with nothing left to report. -/
def report (w : World) (outcome : Outcome) : World × Report :=
  let r : Report := {
    outcome := outcome
    calls := w.calls
    notices := w.notices
    finished := w.finished.mergeSort fun a b => a.1 ≤ b.1
    events := w.holdings.map fun h => (h.1, reportsOf h.2 (h.2.visit fun s => s.position)) }
  ({ w with
      calls := []
      notices := []
      finished := []
      holdings := w.holdings.map fun h =>
        (h.1, (h.2.change fun s => ({ s with position := s.resource.channel.published }, ())).1) },
    r)

/-- Do something and let everything that can happen happen. -/
def step (w : World) (action : Action) : World × Report :=
  let (w, outcome) := act w action
  w.run.report outcome

/-! ## Setting up -/

/-- A generic collection of JSON values. -/
def collection (name : String) (guarded : Bool) (automatic : Option Reply)
    (rules : List (String × AliasRule)) : Holding :=
  .collection {
    resource := {
      name := name
      policy := if guarded then guardedPolicy else {}
      cache := rules.foldl (fun c r => c.register r.1 (r.2.resolver jsonTag)) {} }
    source := .prompted automatic collectionEntries }

/-- A generic single JSON value. -/
def single (name : String) (automatic : Option Reply) : Holding :=
  .single {
    resource := { name := name, isSingle := true }
    source := .prompted automatic singleEntry }

/-- The teams of the service. -/
def teams : Holding :=
  .teams { resource := Teams.empty, source := .remote Teams.requests Teams.entries }

/-- The session with the server. -/
def session : Holding :=
  .session {
    resource := Server.session
    source := .remote (fun _ _ => [Server.sessionRequest]) Server.sessionEntries }

/-- The settings of the product. -/
def settings : Holding :=
  .settings {
    resource := Server.settings
    source := .remote (fun _ _ => [Server.settingsRequest]) Server.settingsEntries }

/-- The world with one more resource. -/
def add (w : World) (name : String) (h : Holding) : World :=
  { w with holdings := w.holdings ++ [(name, h)] }

end Larder.World
