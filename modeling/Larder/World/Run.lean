import Larder.World.Basic

/-!
# Running a world

Every task that stands in the queue takes its turn and goes as far as it can, until it waits for
something or ends. `run` lets tasks take turns until none is left that can go on.
-/

namespace Larder.World

/-- How many turns a run may take, and how many steps one task may take in its turn. -/
def patience : Nat := 100000

/-! ## Loads -/

/-- The key of a call as it is recorded: a single value has none to speak of. -/
def recordedKey {κ ν : Type} [EntryKey κ] (s : Slot κ ν) (key : Key κ) : Option (Key String) :=
  if s.resource.isSingle then none else some (key.map EntryKey.name)

/-- What a load does in its turn. -/
inductive LoadTurn where
  /-- It waits. -/
  | waits
  /-- It asked a prompted source. -/
  | asked (record : CallRecord)
  /-- It has requests to send or to look after. -/
  | fetches
  /-- It has its answer. -/
  | commits

/-- The first turn of a load, or its return. A prompted source is asked; one with an automatic reply
answers at once. -/
def loadTurn {κ ν : Type} [EntryKey κ] (name : String) (seq : Nat) (s : Slot κ ν) :
    Slot κ ν × List LoadTurn :=
  match s.load? seq with
  | none => (s, [])
  | some t =>
    match t.stage with
    | .ready =>
      let sig := t.load.signature
      match s.source with
      | .prompted automatic interpret =>
        let record := CallRecord.prompted name s.calls (recordedKey s sig.key) sig.includes
        let stage : LoadStage κ ν := match automatic with
          | some reply => .answered (interpret reply sig.key sig.includes)
          | none => .waiting s.calls
        ({ s with calls := s.calls + 1 }.modifyLoad seq fun t => { t with stage := stage },
          .asked record :: if automatic.isSome then [.commits] else [])
      | .remote requests _ =>
        let fetches := (requests sig.key sig.includes).map Fetch.unsent
        (s.modifyLoad seq fun t => { t with stage := .fetching fetches }, [.fetches])
    | .fetching _ => (s, [.fetches])
    | .answered _ => (s, [.commits])
    | _ => (s, [.waits])

/-- How many requests of a load are watched together. Of these the first failure counts; the answers
to more than that are collected in order. -/
def watchedTogether : Nat := 30

/-- What looking after the requests of a load comes to. -/
structure Fetched (κ ν : Type) where
  /-- The world afterwards. -/
  world : World
  /-- The requests afterwards. -/
  fetches : List (Fetch κ ν)
  /-- The failure that ends the load, if there is one. -/
  failure : Option Api.ServiceError

/-- Look after the requests of a load in order: send those that are not sent, pick up answers.
`inOrder` says that a failure counts only behind finished requests, and `finished` that all requests
before these are. -/
def lookAfter {κ ν : Type} (owner : TaskId)
    (entries : Answer → Except Api.ServiceError (List (κ × ν))) (inOrder : Bool) :
    Bool → List (Fetch κ ν) → World → Fetched κ ν
  | _, [], w => ⟨w, [], none⟩
  | finished, f :: rest, w =>
    let (w, f) : World × Fetch κ ν :=
      match f with
      | .unsent request =>
        match w.send owner request with
        | (w, .ok a) =>
          match entries a with
          | .ok es => (w, .got es)
          | .error e => (w, .failed e)
        | (w, .error ticket) => (w, .waiting ticket)
      | .waiting ticket =>
        match w.pickUp ticket with
        | (w, some a) =>
          match entries a with
          | .ok es => (w, .got es)
          | .error e => (w, .failed e)
        | (w, none) => (w, .waiting ticket)
      | f => (w, f)
    let done := match f with
      | .got _ => finished
      | _ => false
    match f with
    | .failed e =>
      if finished || !inOrder then ⟨w, f :: rest, some e⟩
      else
        let r := lookAfter owner entries inOrder done rest w
        { r with fetches := f :: r.fetches }
    | f =>
      let r := lookAfter owner entries inOrder done rest w
      { r with fetches := f :: r.fetches }

/-- The tickets of requests that still wait. -/
def openTickets {κ ν : Type} (fetches : List (Fetch κ ν)) : List Nat :=
  fetches.filterMap fun f =>
    match f with
    | .waiting ticket => some ticket
    | _ => none

/-- The entries of all requests, once every one has brought its own. -/
def gathered? {κ ν : Type} (fetches : List (Fetch κ ν)) : Option (List (κ × ν)) :=
  (fetches.mapM fun (f : Fetch κ ν) =>
    match f with
    | .got es => some es
    | _ => none).map List.flatten

/-- Look after the requests of a load of a slot; the load is answered when they are through. -/
def fetchTurn {κ ν : Type} [EntryKey κ] (w : World) (i seq : Nat) (s : Slot κ ν) :
    World × Slot κ ν × Bool :=
  match s.load? seq, s.source with
  | some ⟨_, .fetching fetches, _⟩, .remote _ entries =>
    let inOrder := fetches.length > watchedTogether
    let r := lookAfter (.load i seq) entries inOrder true fetches w
    let answered (w : World) (answer : Except Cause (List (κ × ν))) :=
      (w, s.modifyLoad seq fun t => { t with stage := .answered answer }, true)
    match r.failure with
    | some e => answered (r.world.forgetTickets (openTickets r.fetches)) (.error (.service e))
    | none =>
      match gathered? r.fetches with
      | some es => answered r.world (.ok es)
      | none => (r.world, s.modifyLoad seq fun t => { t with stage := .fetching r.fetches }, false)
  | _, _ => (w, s, false)

/-- Commit a load that has its answer. -/
def commitAnswered (w : World) (i seq : Nat) : World :=
  let now := w.clock
  let (w, woken) := w.change i [] fun s =>
    match s.load? seq with
    | some ⟨_, .answered answer, _⟩ => s.commit now seq answer
    | _ => (s, [])
  w.wakeAll woken

/-- The turn of a load. -/
def runLoad (w : World) (i seq : Nat) : World :=
  let name := w.nameOf i
  let (w, turns) := w.change i [] fun s => loadTurn name seq s
  turns.foldl
    (fun w turn =>
      match turn with
      | .waits => w
      | .asked record => { w with calls := w.calls ++ [record] }
      | .commits => w.commitAnswered i seq
      | .fetches =>
        let (w, ready) : World × Bool := match w.holding? i with
          | none => (w, false)
          | some h =>
            -- sending and picking up touch no resource, so the slot can be put back afterwards
            match h with
            | .collection s => let (w, s, b) := fetchTurn w i seq s; (w.put i (.collection s), b)
            | .single s => let (w, s, b) := fetchTurn w i seq s; (w.put i (.single s), b)
            | .teams s => let (w, s, b) := fetchTurn w i seq s; (w.put i (.teams s), b)
            | .session s => let (w, s, b) := fetchTurn w i seq s; (w.put i (.session s), b)
            | .settings s => let (w, s, b) := fetchTurn w i seq s; (w.put i (.settings s), b)
        if ready then w.commitAnswered i seq else w)
    w

/-! ## Those who wait -/

/-- The turn of somebody who waits for a load. -/
def runHandle (w : World) (h : Nat) : World :=
  match w.handles.get? h with
  | some (.load wait) =>
    match w.await (.handle h) wait with
    | (w, some result) => w.finish h (.load result)
    | (w, none) => w
  | _ => w

/-- The turn of a delivery: the result is put where the binding looks for it. -/
def runCourier (w : World) (request : Nat) : World :=
  match w.couriers.get? request with
  | none => w
  | some c =>
    match w.await (.courier request) c.wait with
    | (w, none) => w
    | (w, some result) =>
      let w := { w with couriers := w.couriers.erase request }
      (w.change c.slot () fun s => ({ s with mail := s.mail.set request result }, ())).1

/-- End the syncs of resources that nothing holds any more. -/
def endSyncs (w : World) : World :=
  let ended := w.syncs.entries.filter fun e =>
    match w.holding? e.2.target with
    | some h => !h.visit fun s => s.isHeld
    | none => true
  ended.foldl
    (fun w e => { w with
      syncs := w.syncs.erase e.1
      listeners := w.listeners.filter fun l => ¬ l.2 = e.1
      queue := w.queue.filter fun t => ¬ t = .sync e.1 })
    w

/-- Give a binding back to its place, or let go of it if the place is gone. -/
def giveBack {κ ν : Type} [EntryKey κ] (s : Slot κ ν) (cell : Nat) (terms : Cell κ)
    (b : Binding κ) : Slot κ ν :=
  if s.cells.contains cell then
    { s with cells := s.cells.set cell { terms with binding := some b } }
  else
    let (_, r) := b.release s.resource
    { s with resource := r }

/-- What the first turn of a binding that waits for its data comes to. -/
def resolveStart {κ ν : Type} [EntryKey κ] (i h : Nat) (s : Slot κ ν) :
    Slot κ ν × Wait × Option Nat :=
  match s.resolving.get? h with
  | some ⟨cell, terms, binding, none⟩ =>
    match binding.beginResolve s.resource with
    | (_, _, none) => (s, .settled (.ok ()), none)
    | (b, r, some started) =>
      let (s, wait, begun) := { s with resource := r }.take i started
      ({ s with resolving := s.resolving.set h ⟨cell, terms, b, some wait⟩ }, wait, begun)
  | some ⟨_, _, _, some wait⟩ => (s, wait, none)
  | none => (s, .settled (.ok ()), none)

/-- The end of a binding's wait: the notices, and what the handle comes to. -/
def resolveEnd {κ ν : Type} [EntryKey κ] [Valued ν] (h : Nat) (result : LoadResult) (w : World)
    (s : Slot κ ν) : World × Slot κ ν × HandleResult :=
  match s.resolving.get? h with
  | none => (w, s, .resolved (.ok none))
  | some ⟨cell, terms, b, wait⟩ =>
    let s := { s with resolving := s.resolving.erase h }
    if wait.isNone then (w, giveBack s cell terms b, .resolved (.ok none))
    else
      let (b, notices, data) := b.endResolve s.resource result
      (w.tell terms notices, giveBack s cell terms b,
        .resolved (data.map fun d => d.map readingJson))

/-- The turn of a binding that waits for its data. -/
def runResolve (w : World) (h : Nat) : World :=
  match w.handles.get? h with
  | some (.resolve i) =>
    let (w, wait) := w.ask i fun s => resolveStart i h s
    match w.await (.resolve h) wait with
    | (w, none) => w
    | (w, some result) =>
      match w.holding? i with
      | none => w
      | some holding =>
        let (w, holding, ended) : World × Holding × HandleResult := match holding with
          | .collection s => let (w, s, r) := resolveEnd h result w s; (w, .collection s, r)
          | .single s => let (w, s, r) := resolveEnd h result w s; (w, .single s, r)
          | .teams s => let (w, s, r) := resolveEnd h result w s; (w, .teams s, r)
          | .session s => let (w, s, r) := resolveEnd h result w s; (w, .session s, r)
          | .settings s => let (w, s, r) := resolveEnd h result w s; (w, .settings s, r)
        ((w.put i holding).finish h ended).endSyncs
  | _ => w

/-! ## Syncs -/

/-- Whether the next event changes data, for a reader at a position, and where it stands then. Lost
events count as a change. -/
def nextChange {κ : Type} (c : Channel (Event κ)) (position : Nat) : Option Bool × Nat :=
  match c.receive position with
  | (.empty, p) => (none, p)
  | (.message e, p) => (some e.changesData, p)
  | (.lagged _, p) => (some true, p)

/-- Mark the single value of a slot outdated. The answer says whether somebody uses it, and with
which includes it was loaded. -/
def markTarget {κ ν : Type} [EntryKey κ] (s : Slot κ ν) : Slot κ ν × Option Includes :=
  let only : κ := EntryKey.ofName "()"
  let r := s.resource.markOutdated (.single only)
  ({ s with resource := r },
    if r.uses.isUsed (.single only) then
      some (match r.cache.ledger.meta? (.key only) with
        | some m => m.includes
        | none => .none)
    else none)

/-- The turn of a sync: it handles the changes of its source one after another, and waits for the
refresh of its target before the next one. -/
def runSync : Nat → World → Nat → World
  | 0, w, _ => w
  | fuel + 1, w, n =>
    match w.syncs.get? n with
    | none => w
    | some t =>
      match t.wait with
      | some wait =>
        match w.await (.sync n) wait with
        | (w, none) => w
        | (w, some _) =>
          runSync fuel { w with syncs := w.syncs.modify n fun t => { t with wait := none } } n
      | none =>
        match w.holding? t.source with
        | none => w
        | some source =>
          match source.visit fun s => nextChange s.resource.channel t.position with
          | (none, _) => { w with listeners := w.listeners ++ [(t.source, n)] }
          | (some changes, position) =>
            let w := { w with syncs := w.syncs.modify n fun t => { t with position := position } }
            if !changes then runSync fuel w n
            else
              let (w, used) := w.change t.target none fun s => markTarget s
              match used with
              | none => runSync fuel w n
              | some inc =>
                let (w, wait) := w.ask t.target fun s =>
                  s.ask t.target (.single (EntryKey.ofName "()")) inc true
                runSync fuel
                  { w with syncs := w.syncs.modify n fun t => { t with wait := some wait } } n

/-! ## Purges -/

/-- The turn of a recurring purge. It starts when it first runs; from then on it purges whenever it
is due, as long as anything holds the resource. A purge with no interval, or one that reaches back
further than time does, ends. -/
def runPurge (w : World) (n : Nat) : World :=
  match w.purges.get? n with
  | none => w
  | some t =>
    let ended := { w with purges := w.purges.erase n }
    if t.interval = 0 then ended
    else match t.due with
      | none =>
        { w with purges := w.purges.set n { t with due := some (w.timer + t.interval) } }
      | some due =>
        if w.timer < due then w
        else
          let busy := w.operations.values.any fun o => o.slot = t.slot
          let alive := busy || match w.holding? t.slot with
            | some h => h.visit fun s => s.isAlive
            | none => false
          if !alive then ended
          else
            let now := w.clock
            let (w, purged) := w.change t.slot false fun s =>
              match s.resource.purgeOlder now t.ttl with
              | some (r, _) => ({ s with resource := r }, true)
              | none => (s, false)
            if purged then
              -- ticks that were missed are made up for at once, which changes nothing more
              let next := due + ((w.timer - due) / t.interval + 1) * t.interval
              { w with purges := w.purges.set n { t with due := some next } }
            else { w with purges := w.purges.erase n }

/-! ## Operations on teams -/

/-- Go on with an operation until it waits or ends. -/
def advanceOperation : Nat → World → Nat → Slot String Team → Nat → Teams.Next → World
  | 0, w, i, s, _, _ => w.put i (.teams s)
  | fuel + 1, w, i, s, h, next =>
    match next with
    | .finished result =>
      { w.put i (.teams s) with operations := w.operations.erase h }.finish h (.operation result)
    | .send request stage =>
      match w.send (.operation h) request with
      | (w, .error ticket) =>
        { w.put i (.teams s) with operations := w.operations.set h ⟨i, .sent ticket stage⟩ }
      | (w, .ok a) =>
        let (r, next) := Teams.answer s.resource w.clock stage a
        advanceOperation fuel w i { s with resource := r } h next
    | .await started sequel =>
      let (s, wait, begun) := s.take i started
      let w := match begun with
        | some seq => w.wake (.load i seq)
        | none => w
      let w := w.put i (.teams s)
      let w := { w with operations := w.operations.set h ⟨i, .waiting wait sequel⟩ }
      match w.await (.operation h) wait with
      | (w, none) => w
      | (w, some result) =>
        match w.holding? i with
        | some (.teams s) =>
          let (r, next) := Teams.reloaded s.resource sequel result
          advanceOperation fuel w i { s with resource := r } h next
        | _ => w

/-- The turn of an operation on teams. -/
def runOperation (w : World) (h : Nat) : World :=
  match w.operations.get? h with
  | none => w
  | some task =>
    match w.holding? task.slot with
    | some (.teams s) =>
      match task.stage with
      | .unstarted call =>
        let (r, next) := Teams.begin s.resource call
        advanceOperation patience w task.slot { s with resource := r } h next
      | .sent ticket stage =>
        match w.pickUp ticket with
        | (w, none) => w
        | (w, some a) =>
          let (r, next) := Teams.answer s.resource w.clock stage a
          advanceOperation patience w task.slot { s with resource := r } h next
      | .waiting wait sequel =>
        match w.await (.operation h) wait with
        | (w, none) => w
        | (w, some result) =>
          match w.holding? task.slot with
          | some (.teams s) =>
            let (r, next) := Teams.reloaded s.resource sequel result
            advanceOperation patience w task.slot { s with resource := r } h next
          | _ => w
    | _ => w

/-! ## Taking turns -/

/-- The turn of a task. -/
def turn (w : World) : TaskId → World
  | .load i seq => w.runLoad i seq
  | .handle h => w.runHandle h
  | .courier request => w.runCourier request
  | .resolve h => w.runResolve h
  | .sync n => runSync patience w n
  | .purge n => w.runPurge n
  | .operation h => w.runOperation h

/-- Let tasks take turns, at most so many. -/
def runFor : Nat → World → World
  | 0, w => w
  | fuel + 1, w =>
    match w.queue with
    | [] => w
    | t :: rest => runFor fuel ({ w with queue := rest }.turn t)

/-- Let tasks take turns until all of them wait. -/
def run (w : World) : World := runFor patience w

end Larder.World
