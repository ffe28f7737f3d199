import Larder.World.Slot

/-!
# Worlds

A world is a number of named resources with everything that is under way between them: loads, those
who wait for them, bindings, syncs, recurring purges, operations on teams. Time stands still unless
it is advanced, and nothing happens at the same time: tasks that can go on stand in one queue and
take their turns in the order in which they were woken.
-/

namespace Larder

namespace World

/-- A request that waits for its answer. -/
structure Ticket where
  /-- The number of the request. -/
  number : Nat
  /-- The task that sent it. -/
  owner : TaskId
  /-- The request. -/
  request : Api.Request
  /-- The gate at which it waits and the answer it gets there; nothing if the answer has to come
  from outside. -/
  gate : Option (String × Answer)
  /-- The answer, once it is there. -/
  answer : Option Answer := none

/-- Who waits under a handle. -/
inductive Handle where
  /-- Somebody waits for a load. -/
  | load (wait : Wait)
  /-- A binding of a slot waits for its data. -/
  | resolve (slot : Nat)
  /-- An operation on teams runs. -/
  | operation

/-- What is delivered to a binding's request. -/
structure Courier where
  /-- The slot of the binding. -/
  slot : Nat
  /-- What is waited for. -/
  wait : Wait

/-- One resource is kept in step with another. -/
structure SyncTask where
  /-- Whose changes count. -/
  source : Nat
  /-- What is outdated by them. -/
  target : Nat
  /-- The number of the source's next event. -/
  position : Nat
  /-- The refresh that is waited for, if one runs. -/
  wait : Option Wait := none

/-- A purge that recurs. -/
structure PurgeTask where
  /-- What is purged. -/
  slot : Nat
  /-- Milliseconds between purges. -/
  interval : Nat
  /-- Entries not older than this many milliseconds stay. -/
  ttl : Int
  /-- When the next purge is due; nothing before the task has started. -/
  due : Option Nat := none

/-- How far an operation on teams has come. -/
inductive OperationStage where
  /-- It has not begun. -/
  | unstarted (call : Teams.Call)
  /-- Its request waits for an answer. -/
  | sent (ticket : Nat) (stage : Teams.Stage)
  /-- It waits for a load. -/
  | waiting (wait : Wait) (sequel : Teams.Sequel)

/-- An operation on teams. -/
structure OperationTask where
  /-- The slot of the teams. -/
  slot : Nat
  /-- How far it has come. -/
  stage : OperationStage

/-- A call to a source, as it is recorded. -/
inductive CallRecord where
  /-- A load asked a prompted source. -/
  | prompted (resource : String) (call : Nat) (key : Option (Key String)) (includes : Includes)
  /-- A request was sent to the service. -/
  | request (r : Api.Request)

/-- What a consumer was told, as it is recorded. -/
structure NoticeRecord where
  /-- The label of the binding. -/
  label : String
  /-- What it was told. -/
  notice : Notice Json

/-- What a handle came to. -/
inductive HandleResult where
  /-- A load ended. -/
  | load (result : LoadResult)
  /-- A binding has its data, if there is any. -/
  | resolved (result : Except Failure (Option Json))
  /-- An operation on teams ended. -/
  | operation (result : Except Teams.Trouble Teams.Yield)

end World

open World in
/-- Named resources and all that is under way between them. -/
structure World where
  /-- The resources with their names, in the order of their declaration. -/
  holdings : List (String × Holding) := []
  /-- The service. -/
  service : Service := {}
  /-- The time of day. -/
  clock : Instant
  /-- Milliseconds that timers have counted. -/
  timer : Nat := 0
  /-- The tasks that can go on, in the order of their turns. -/
  queue : List TaskId := []
  /-- Requests without an answer, and answers nobody has picked up. -/
  tickets : List Ticket := []
  /-- Those who still wait under a handle. -/
  handles : Table Nat Handle := .empty
  /-- Results on their way to bindings, by request. -/
  couriers : Table Nat Courier := .empty
  /-- The syncs. -/
  syncs : Table Nat SyncTask := .empty
  /-- The syncs that wait for a source's next event, in the order in which they began to wait. -/
  listeners : List (Nat × Nat) := []
  /-- The recurring purges. -/
  purges : Table Nat PurgeTask := .empty
  /-- The operations on teams, by handle. -/
  operations : Table Nat OperationTask := .empty
  /-- For each label the slot and the place of the binding. -/
  labels : Table String (Nat × Nat) := .empty
  /-- The uses registered under a label. -/
  useLabels : Table String UseId := .empty
  /-- For each subscriber the slot and how far it has read. -/
  subscribers : Table String (Nat × Nat) := .empty
  /-- How many handles were given out. -/
  handleCount : Nat := 0
  /-- A number not used before, for anything else that needs one. -/
  fresh : Nat := 0
  /-- Calls made since they were last reported. -/
  calls : List CallRecord := []
  /-- Notices given since they were last reported. -/
  notices : List NoticeRecord := []
  /-- Handles that came to an end since they were last reported. -/
  finished : List (Nat × HandleResult) := []

namespace World

/-- The holding in a slot. -/
def holding? (w : World) (i : Nat) : Option Holding := (w.holdings.drop i).head?.map Prod.snd

/-- The name of the resource in a slot. -/
def nameOf (w : World) (i : Nat) : String := ((w.holdings.drop i).head?.map Prod.fst).getD ""

/-- The slot of a resource the world holds, by its name; the first resource without a name. -/
def slotOf? (w : World) (name : Option String) : Option Nat :=
  let i? := match name with
    | some n => w.holdings.findIdx? fun (h : String × Holding) => h.1 = n
    | none => some 0
  i?.bind fun i =>
    match w.holding? i with
    | some h => if h.visit fun s => s.held then some i else none
    | none => none

/-- Let a task have a turn, if it does not stand in the queue already. -/
def wake (w : World) (t : TaskId) : World :=
  if w.queue.contains t then w else { w with queue := w.queue ++ [t] }

/-- Let some tasks have a turn. -/
def wakeAll (w : World) (ts : List TaskId) : World := ts.foldl wake w

/-- Take over a holding. Whoever waits for the resource's events is woken if there are new ones. -/
def put (w : World) (i : Nat) (h : Holding) : World :=
  let before := match w.holding? i with
    | some old => old.published
    | none => 0
  let w := { w with holdings := w.holdings.mapIdx fun j e => if j = i then (e.1, h) else e }
  if h.published > before then
    let woken := (w.listeners.filter fun l => l.1 = i).map fun l => TaskId.sync l.2
    { w with listeners := w.listeners.filter fun l => ¬ l.1 = i }.wakeAll woken
  else w

/-- Change the slot with a number, whatever its sort. -/
def change {α : Type} (w : World) (i : Nat) (fallback : α)
    (f : {κ ν : Type} → [EntryKey κ] → [Valued ν] → Slot κ ν → Slot κ ν × α) : World × α :=
  match w.holding? i with
  | none => (w, fallback)
  | some h =>
    let (h, a) := h.change f
    (w.put i h, a)

/-- Draw a number that was not used before. -/
def draw (w : World) : World × Nat := ({ w with fresh := w.fresh + 1 }, w.fresh)

/-- Change a slot by a wish to load. A load that begins is queued before anybody hears of it. -/
def ask (w : World) (i : Nat)
    (f : {κ ν : Type} → [EntryKey κ] → [Valued ν] → Slot κ ν → Slot κ ν × Wait × Option Nat) :
    World × Wait :=
  match w.holding? i with
  | none => (w, .settled (.ok ()))
  | some h =>
    let (h, wait, begun) := h.change f
    let w := match begun with
      | some seq => w.wake (.load i seq)
      | none => w
    (w.put i h, wait)

/-- Look for a result on behalf of a task, which is woken later if it is not there. -/
def await (w : World) (task : TaskId) : Wait → World × Option LoadResult
  | .settled result => (w, some result)
  | .shared i seq => w.change i (some (.ok ())) fun s => s.await seq task

/-- Record what a consumer was told, as far as the consumer wants to know. -/
def tell {κ ν : Type} [Valued ν] (w : World) (cell : Cell κ) (notices : List (Notice ν)) :
    World :=
  let records := notices.filterMap fun n =>
    match n with
    | .data d => if cell.callbacks then some (Notice.data (.one (readingJson d))) else none
    | .failure f => if cell.callbacks then some (Notice.failure f) else none
    | .caught f => if cell.recordsCaught then some (Notice.caught f) else none
  { w with notices := w.notices ++ records.map fun n => ⟨cell.label, n⟩ }

/-- Record that a handle came to an end, if anybody still waits under it. -/
def finish (w : World) (h : Nat) (result : HandleResult) : World :=
  if w.handles.contains h then
    { w with handles := w.handles.erase h, finished := w.finished ++ [(h, result)] }
  else w

/-- Send a request on behalf of a task: its answer, or the number of the ticket under which the task
is woken. -/
def send (w : World) (owner : TaskId) (request : Api.Request) : World × Except Nat Answer :=
  let (service, fate) := w.service.send request.operation
  let w := { w with service := service, calls := w.calls ++ [.request request] }
  match fate with
  | .answered a => (w, .ok a)
  | .gated gate a =>
    let (w, n) := w.draw
    ({ w with tickets := w.tickets ++ [⟨n, owner, request, some (gate, a), none⟩] }, .error n)
  | .unanswered =>
    let (w, n) := w.draw
    ({ w with tickets := w.tickets ++ [⟨n, owner, request, none, none⟩] }, .error n)

/-- Pick up the answer to a request, if it is there. -/
def pickUp (w : World) (ticket : Nat) : World × Option Answer :=
  match w.tickets.find? fun t => t.number = ticket with
  | some ⟨_, _, _, _, some a⟩ =>
    ({ w with tickets := w.tickets.filter fun t => ¬ t.number = ticket }, some a)
  | _ => (w, none)

/-- Answer a request that waits. -/
def answer (w : World) (ticket : Nat) (a : Answer) : World :=
  match w.tickets.find? fun t => t.number = ticket with
  | none => w
  | some t =>
    { w with tickets := w.tickets.map fun (u : Ticket) =>
        if u.number = ticket then { u with answer := some a } else u }.wake t.owner

/-- Let the oldest request at a gate go on; the answer says whether there was one. -/
def release (w : World) (gate : String) : World × Bool :=
  let waits (t : Ticket) : Bool := t.answer.isNone && (t.gate.map Prod.fst) = some gate
  match w.tickets.find? waits with
  | some ⟨n, _, _, some (_, a), _⟩ => (w.answer n a, true)
  | _ => (w, false)

/-- Forget the requests a load has left behind. -/
def forgetTickets (w : World) (numbers : List Nat) : World :=
  { w with tickets := w.tickets.filter fun t => !numbers.contains t.number }

end World

end Larder
