import Larder.Binding
import Larder.Server
import Larder.Teams.Operation
import Larder.World.Source

/-!
# Slots

A slot is one resource of a world with all that is under way on it: its loads, the bindings on it,
and the results that wait to be collected. Slots differ in their keys and values; a `Holding` is a
slot of any of the five sorts there are, and `Holding.change` lets an operation that works for every
sort act on it.
-/

namespace Larder.World

/-- A task of the world. -/
inductive TaskId where
  /-- A load of a resource, by its number. -/
  | load (slot seq : Nat)
  /-- Somebody who waits for a load under a handle. -/
  | handle (h : Nat)
  /-- The delivery of a result to a binding's request. -/
  | courier (request : Nat)
  /-- A binding that waits for its data under a handle. -/
  | resolve (h : Nat)
  /-- The syncing of one resource to another. -/
  | sync (n : Nat)
  /-- A purge that recurs. -/
  | purge (n : Nat)
  /-- An operation on teams under a handle. -/
  | operation (h : Nat)
deriving DecidableEq, Repr

/-- What becomes of one request of a load. -/
inductive Fetch (κ ν : Type) where
  /-- It is not sent yet. -/
  | unsent (request : Api.Request)
  /-- It waits for its answer. -/
  | waiting (ticket : Nat)
  /-- It brought some entries. -/
  | got (entries : List (κ × ν))
  /-- It failed, while earlier ones are still open. -/
  | failed (error : Api.ServiceError)

/-- How far a load has come. -/
inductive LoadStage (κ ν : Type) where
  /-- It has not run yet. -/
  | ready
  /-- It waits for a reply, as the call with this number. -/
  | waiting (call : Nat)
  /-- It has its answer. -/
  | answered (answer : Except Cause (List (κ × ν)))
  /-- Its requests are under way. -/
  | fetching (fetches : List (Fetch κ ν))
  /-- It ended. -/
  | ended (result : LoadResult)
  /-- It broke off, and nobody has asked for the result yet. -/
  | brokenOff

/-- A load and those who wait for it. -/
structure LoadTask (κ ν : Type) where
  /-- The load. -/
  load : PendingLoad κ
  /-- How far it has come. -/
  stage : LoadStage κ ν := .ready
  /-- Who waits for it, in the order in which they asked. -/
  waiters : List TaskId := []

/-- Whether a load still holds on to its resource. -/
def LoadTask.isRunning {κ ν : Type} (t : LoadTask κ ν) : Bool :=
  match t.stage with
  | .ended _ | .brokenOff => false
  | _ => true

/-- A place for a binding. The binding is lent away while somebody waits for its data. -/
structure Cell (κ : Type) where
  /-- The name under which the binding was made. -/
  label : String
  /-- The binding, unless it is lent away. -/
  binding : Option (Binding κ)
  /-- Whether the consumer is told of data and failures. -/
  callbacks : Bool
  /-- Whether caught failures are recorded. -/
  recordsCaught : Bool

/-- Something to wait for. -/
inductive Wait where
  /-- The result is there already. -/
  | settled (result : LoadResult)
  /-- The result of a load. -/
  | shared (slot seq : Nat)

/-- A binding whose data is waited for. -/
structure Resolving (κ : Type) where
  /-- The binding's place. -/
  cell : Nat
  /-- What the place says about the consumer. -/
  terms : Cell κ
  /-- The binding. -/
  binding : Binding κ
  /-- What is waited for; nothing before the first step. -/
  wait : Option Wait

/-- How values are given and shown. -/
class Valued (ν : Type) where
  /-- The value as it is shown. -/
  toJson : ν → Json
  /-- The value that is given. -/
  ofJson : Json → ν
  /-- The tag by which aliases find it. -/
  tag : ν → Option String

instance : Valued Json where
  toJson := id
  ofJson := id
  tag := jsonTag

instance : Valued Team where
  toJson t := .obj (t.members ++ [("is_new", .bool t.isNew)])
  ofJson j :=
    let text (name : String) : Option String := (j.member? name).bind Json.str?
    { teamId := (text "team_id").getD ""
      teamName := text "team_name"
      description := text "description"
      permissions := (((j.member? "team_permissions").bind Json.items?).getD []).filterMap Json.str?
      metaParameters := match j.member? "meta_parameters" with
        | some (.obj ms) => some ms
        | _ => none
      createdAt := (text "created_at").bind Instant.parse? }
  tag _ := none

instance : Valued Api.SessionInfo where
  toJson := Api.SessionInfo.encode
  ofJson j := ((Api.SessionInfo.decode j).toOption).getD ⟨"", "", "", false, false, none⟩
  tag _ := none

instance : Valued Api.ProductSettings where
  toJson := Api.ProductSettings.encode
  ofJson j := ((Api.ProductSettings.decode j).toOption).getD ⟨[], []⟩
  tag _ := none

/-- What a consumer reads, as it is shown. -/
def readingJson {ν : Type} [Valued ν] : Reading ν → Json
  | .many values => .arr (values.map Valued.toJson)
  | .one value => Valued.toJson value

/-- A resource and what is under way on it. -/
structure Slot (κ ν : Type) [EntryKey κ] where
  /-- The resource. -/
  resource : Resource κ ν
  /-- Where it loads from. -/
  source : Source κ ν
  /-- Its loads, oldest first. -/
  loads : List (LoadTask κ ν) := []
  /-- How many loads asked a prompted source so far. -/
  calls : Nat := 0
  /-- The places of its bindings. -/
  cells : Table Nat (Cell κ) := .empty
  /-- The bindings whose data is waited for, by handle. -/
  resolving : Table Nat (Resolving κ) := .empty
  /-- Results for the requests of bindings. -/
  mail : Table Nat LoadResult := .empty
  /-- Whether the world itself holds the resource. -/
  held : Bool := true
  /-- How far the world has read the resource's events. -/
  position : Nat := 0

namespace Slot

variable {κ ν : Type} [EntryKey κ]

/-- Whether the world or a binding holds the resource. -/
def isHeld (s : Slot κ ν) : Bool :=
  s.held || s.cells.values.any (fun c => c.binding.isSome) || !s.resolving.isEmpty

/-- Whether anything holds the resource, its running loads included. -/
def isAlive (s : Slot κ ν) : Bool := s.isHeld || s.loads.any LoadTask.isRunning

/-- The load with a number. -/
def load? (s : Slot κ ν) (seq : Nat) : Option (LoadTask κ ν) :=
  s.loads.find? fun t => t.load.seq = seq

/-- Change the load with a number. -/
def modifyLoad (s : Slot κ ν) (seq : Nat) (f : LoadTask κ ν → LoadTask κ ν) : Slot κ ν :=
  { s with loads := s.loads.map fun t => if t.load.seq = seq then f t else t }

/-- Take note of what came of the wish to load: what there is to wait for, and the number of the
load that has to be run, if a new one began. -/
def take (s : Slot κ ν) (index : Nat) (started : Started κ) : Slot κ ν × Wait × Option Nat :=
  match started with
  | .rejected f => (s, .settled (.error f), none)
  | .fresh => (s, .settled (.ok ()), none)
  | .joined seq => (s, .shared index seq, none)
  | .begun load =>
    ({ s with loads := s.loads ++ [{ load := load }] }, .shared index load.seq, some load.seq)

/-- Ask for a load of a key. -/
def ask (s : Slot κ ν) (index : Nat) (key : Key κ) (inc : Includes) (force : Bool) :
    Slot κ ν × Wait × Option Nat :=
  let (r, started) := s.resource.start key inc force
  { s with resource := r }.take index started

/-- Look for the result of a load on behalf of a task. A load that broke off is cleaned up now. -/
def await (s : Slot κ ν) (seq : Nat) (task : TaskId) : Slot κ ν × Option LoadResult :=
  match s.load? seq with
  | none => (s, some (.ok ()))
  | some t =>
    match t.stage with
    | .ended result => (s, some result)
    | .brokenOff =>
      let (r, f) := s.resource.abort t.load
      ({ s with resource := r }.modifyLoad seq fun t => { t with stage := .ended (.error f) },
        some (.error f))
    | _ =>
      (s.modifyLoad seq fun t =>
        if t.waiters.contains task then t else { t with waiters := t.waiters ++ [task] }, none)

/-- Commit the answer of a load; the second part is who waited for it. -/
def commit (s : Slot κ ν) (now : Instant) (seq : Nat) (answer : Except Cause (List (κ × ν))) :
    Slot κ ν × List TaskId :=
  match s.load? seq with
  | none => (s, [])
  | some t =>
    let (r, committed) := s.resource.commit now t.load answer
    let stage : LoadStage κ ν := match committed with
      | .success => .ended (.ok ())
      | .failure f => .ended (.error f)
      | .brokenOff => .brokenOff
    ({ s with resource := r }.modifyLoad seq fun t => { t with stage := stage, waiters := [] },
      t.waiters)

end Slot

/-- A slot of any sort. -/
inductive Holding where
  /-- A collection of JSON values. -/
  | collection (s : Slot String Json)
  /-- A single JSON value. -/
  | single (s : Slot Sole Json)
  /-- Teams. -/
  | teams (s : Slot String Team)
  /-- The session. -/
  | session (s : Slot Sole Api.SessionInfo)
  /-- The settings of the product. -/
  | settings (s : Slot Sole Api.ProductSettings)

namespace Holding

/-- Look at a slot of any sort. -/
def visit {α : Type} (h : Holding)
    (f : {κ ν : Type} → [EntryKey κ] → [Valued ν] → Slot κ ν → α) : α :=
  match h with
  | .collection s => f s
  | .single s => f s
  | .teams s => f s
  | .session s => f s
  | .settings s => f s

/-- Change a slot of any sort. -/
def change {α : Type} (h : Holding)
    (f : {κ ν : Type} → [EntryKey κ] → [Valued ν] → Slot κ ν → Slot κ ν × α) : Holding × α :=
  match h with
  | .collection s => let (s, a) := f s; (.collection s, a)
  | .single s => let (s, a) := f s; (.single s, a)
  | .teams s => let (s, a) := f s; (.teams s, a)
  | .session s => let (s, a) := f s; (.session s, a)
  | .settings s => let (s, a) := f s; (.settings s, a)

/-- How many events the resource has published. -/
def published (h : Holding) : Nat := h.visit fun s => s.resource.channel.published

end Holding

end Larder.World
