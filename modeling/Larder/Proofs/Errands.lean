import Larder.Proofs.Rest

/-!
# Operations that nothing comes in between

An operation on teams is called for, sends a request, rests until the request is answered, and so on
until it ends. Whatever else goes on may come in between. This file is about the case in which nothing
does: the answers arrive one after the other and the operation takes a step at each.

`Desk.alone` is the list of these moves. What they come to is told without a desk by `proceed`, which
takes the operation from one answer to the next, and `Desk.run_alone` says that the two agree. The
requests that go out on the way are `Desk.sent`, and `asks` for the operation by itself.
-/

namespace Larder.Teams

/-- The time at which an answer arrives, and the answer. -/
abbrev Arrival := Instant × Except Api.ServiceError Json

/-- The requests of a load, if it has begun. -/
def loadRequests (started : Started String) : List Api.Request :=
  started.loads.flatMap fun load => requests load.signature.key load.signature.includes

/-- The requests that are sent when an operation goes on in this way. -/
def Next.sends : Next → List Api.Request
  | .send request _ => [request]
  | .await started _ => loadRequests started
  | .finished _ => []

/-- The request to replace the permissions of a team. -/
def permissionsRequest (team : String) (permissions : List String) : Api.Request where
  operation := "setSubjectPermissions"
  document := Api.Documents.setSubjectPermissions
  inputs := .obj [("permissions", .strings permissions), ("subjectId", .str team)]

/-- The request to delete a team. -/
def deleteRequest (force : Bool) (team : String) : Api.Request where
  operation := "deleteTeam"
  document := Api.Documents.deleteTeam
  inputs := .obj [("force", .bool force), ("teamId", .str team)]

/-! ## The course of an operation -/

/-- Where an operation stands after some answers. Those that come when no request of it is open are not
for it. -/
def proceed : Resource String Team × Next → List Arrival → Resource String Team × Next
  | (r, .send _ stage), (now, reply) :: rest => proceed (answer r now stage reply) rest
  | state, _ => state

/-- The requests that an operation sends from some point on while the answers arrive. -/
def asks : Resource String Team × Next → List Arrival → List Api.Request
  | (r, .send request stage), (now, reply) :: rest =>
    request :: asks (answer r now stage reply) rest
  | (_, next), _ => next.sends

/-- No request of the operation is open. -/
def Next.Quiet (next : Next) : Prop := ∀ request stage, next ≠ .send request stage

theorem quiet_finished (result : Except Trouble Yield) : (Next.finished result).Quiet :=
  fun _ _ h => by cases h

/-- An operation stands at a request, or none of its requests is open. -/
theorem open_or_quiet (state : Resource String Team × Next) :
    (∃ r request stage, state = (r, .send request stage)) ∨ state.2.Quiet := by
  rcases state with ⟨r, next⟩
  cases next with
  | send request stage => exact Or.inl ⟨r, request, stage, rfl⟩
  | await started sequel => exact Or.inr fun _ _ h => by cases h
  | finished result => exact Or.inr (quiet_finished result)

section

variable {state : Resource String Team × Next} (answers : List Arrival)

@[simp]
theorem proceed_send (r : Resource String Team) (request : Api.Request) (stage : Stage) (a : Arrival) :
    proceed (r, .send request stage) (a :: answers) = proceed (answer r a.1 stage a.2) answers := rfl

@[simp]
theorem asks_send (r : Resource String Team) (request : Api.Request) (stage : Stage) (a : Arrival) :
    asks (r, .send request stage) (a :: answers)
      = request :: asks (answer r a.1 stage a.2) answers := rfl

@[simp]
theorem proceed_nil (state : Resource String Team × Next) : proceed state [] = state := by
  rcases state with ⟨r, _ | _ | _⟩ <;> rfl

@[simp]
theorem asks_nil (state : Resource String Team × Next) : asks state [] = state.2.sends := by
  rcases state with ⟨r, _ | _ | _⟩ <;> rfl

/-- An operation without an open request stays where it is. -/
theorem proceed_of_quiet (h : state.2.Quiet) : proceed state answers = state := by
  rcases state with ⟨r, _ | _ | _⟩
  · exact absurd rfl (h _ _)
  · cases answers <;> rfl
  · cases answers <;> rfl

theorem asks_of_quiet (h : state.2.Quiet) : asks state answers = state.2.sends := by
  rcases state with ⟨r, _ | _ | _⟩
  · exact absurd rfl (h _ _)
  · cases answers <;> rfl
  · cases answers <;> rfl

@[simp]
theorem proceed_finished (r : Resource String Team) (result : Except Trouble Yield) :
    proceed (r, .finished result) answers = (r, .finished result) :=
  proceed_of_quiet answers (quiet_finished result)

@[simp]
theorem asks_finished (r : Resource String Team) (result : Except Trouble Yield) :
    asks (r, .finished result) answers = [] :=
  asks_of_quiet answers (quiet_finished result)

end

/-- The first step of an operation waits for no load. -/
theorem loads_begin (r : Resource String Team) (c : Call) : (begin r c).2.loads = [] := by
  cases c with
  | delete key force =>
      show (deleteNext [] force (r.cache.resolve key)).loads = []
      cases r.cache.resolve key <;> rfl
  | setPermissions id permissions =>
      simp only [begin, grant]
      cases r.cache.data.get? id with
      | none => rfl
      | some t =>
          dsimp only
          split <;> rfl
  | _ => rfl

namespace Desk

/-- A move leads from what teams can come to nowhere else. -/
theorem reached_step {d : Desk} (hd : Reached d.busy) (m : Move) : Reached (d.step m).busy := by
  refine (step_does hd.sane.policy m).keeps (fun b op hdoes hb => ?_) hd
  refine hb.tail op fun name r heq => ?_
  subst heq
  cases hdoes

theorem reached_run_of {d : Desk} (hd : Reached d.busy) (moves : List Move) :
    Reached (d.run moves).busy := by
  induction moves generalizing d with
  | nil => exact hd
  | cons m moves ih => exact ih (reached_step hd m)

/-! ## The moves of an operation -/

/-- The requests that a move sends. -/
def sends (d : Desk) : Move → List Api.Request
  | .load key inc force => loadRequests (d.resource.start key inc force).2
  | .call c => (begin d.resource c).2.sends
  | .replied i now reply =>
    match d.errands[i]? with
    | some (.send _ stage) => (answer d.resource now stage reply).2.sends
    | _ => []
  | .resumed i result =>
    match d.errands[i]? with
    | some (.await _ sequel) => (reloaded d.resource sequel result).2.sends
    | _ => []
  | _ => []

/-- The requests that some moves send, one after the other. -/
def sent (d : Desk) : List Move → List Api.Request
  | [] => []
  | m :: moves => d.sends m ++ (d.step m).sent moves

/-- An operation that nothing comes in between: it is called for, and then some answers arrive. -/
def alone (d : Desk) (c : Call) (answers : List Arrival) : List Move :=
  .call c :: answers.map fun a => .replied d.errands.length a.1 a.2

/-- The desk with one more operation, which stands somewhere. -/
def withErrand (d : Desk) (state : Resource String Team × Next) : Desk where
  resource := state.1
  pending := d.pending ++ state.2.loads
  errands := d.errands ++ [state.2]

variable (d : Desk)

theorem getElem?_withErrand (state : Resource String Team × Next) :
    (d.withErrand state).errands[d.errands.length]? = some state.2 :=
  List.getElem?_concat_length

/-- What it tells of the operation is where that stands. -/
theorem errands_withErrand_iff (state : Resource String Team × Next) (next : Next) :
    (d.withErrand state).errands = d.errands ++ [next] ↔ state.2 = next :=
  (List.append_right_inj _).trans List.singleton_inj

theorem pending_withErrand {state : Resource String Team × Next} (h : state.2.loads = []) :
    (d.withErrand state).pending = d.pending := by
  show d.pending ++ state.2.loads = d.pending
  rw [h, List.append_nil]

theorem step_call (c : Call) : d.step (.call c) = d.withErrand (begin d.resource c) := by
  unfold withErrand
  rw [loads_begin, List.append_nil]
  rfl

/-- An answer takes an operation that stands at a request to where it goes on from there. -/
theorem step_replied_send (r : Resource String Team) (request : Api.Request) (stage : Stage)
    (a : Arrival) :
    (d.withErrand (r, .send request stage)).step (.replied d.errands.length a.1 a.2)
      = d.withErrand (answer r a.1 stage a.2) := by
  have hset : (d.errands ++ [Next.send request stage]).set d.errands.length (answer r a.1 stage a.2).2
      = d.errands ++ [(answer r a.1 stage a.2).2] := by
    simp
  simp only [step, getElem?_withErrand]
  unfold advance withErrand
  simp only [hset, Next.loads, List.append_nil]

/-- And is nothing to one that has no open request. -/
theorem step_replied_quiet {state : Resource String Team × Next} (h : state.2.Quiet) (a : Arrival) :
    (d.withErrand state).step (.replied d.errands.length a.1 a.2) = d.withErrand state := by
  rcases state with ⟨r, _ | _ | _⟩
  · exact absurd rfl (h _ _)
  · simp only [step, getElem?_withErrand]
  · simp only [step, getElem?_withErrand]

theorem sends_replied_quiet {state : Resource String Team × Next} (h : state.2.Quiet) (a : Arrival) :
    (d.withErrand state).sends (.replied d.errands.length a.1 a.2) = [] := by
  rcases state with ⟨r, _ | _ | _⟩
  · exact absurd rfl (h _ _)
  · simp only [sends, getElem?_withErrand]
  · simp only [sends, getElem?_withErrand]

/-- The answers take an operation along its course. -/
theorem run_replied (state : Resource String Team × Next) (answers : List Arrival) :
    (d.withErrand state).run (answers.map fun a => .replied d.errands.length a.1 a.2)
      = d.withErrand (proceed state answers) := by
  induction answers generalizing state with
  | nil => rw [proceed_nil]; rfl
  | cons a answers ih =>
      rw [List.map_cons, run_cons]
      -- the answer is for the open request, or there is none and it changes nothing
      rcases open_or_quiet state with ⟨r, request, stage, rfl⟩ | hquiet
      · rw [step_replied_send, ih, proceed_send]
      · rw [step_replied_quiet d hquiet, ih, proceed_of_quiet _ hquiet, proceed_of_quiet _ hquiet]

/-- On the way it sends what its course asks for. -/
theorem sends_append_sent_replied (state : Resource String Team × Next) (answers : List Arrival) :
    state.2.sends
        ++ (d.withErrand state).sent (answers.map fun a => .replied d.errands.length a.1 a.2)
      = asks state answers := by
  induction answers generalizing state with
  | nil => rw [asks_nil]; exact List.append_nil _
  | cons a answers ih =>
      rw [List.map_cons, sent]
      rcases open_or_quiet state with ⟨r, request, stage, rfl⟩ | hquiet
      · have hsends : (d.withErrand (r, .send request stage)).sends (.replied d.errands.length a.1 a.2)
            = (answer r a.1 stage a.2).2.sends := by
          simp only [sends, getElem?_withErrand]
          rfl
        rw [step_replied_send, hsends, ih, asks_send]
        rfl
      · rw [step_replied_quiet d hquiet, sends_replied_quiet d hquiet, List.nil_append, ih,
          asks_of_quiet _ hquiet, asks_of_quiet _ hquiet]

/-- **An operation that nothing comes in between comes to where its course leads.** -/
theorem run_alone (c : Call) (answers : List Arrival) :
    d.run (d.alone c answers) = d.withErrand (proceed (begin d.resource c) answers) := by
  unfold alone
  rw [run_cons, step_call, run_replied]

/-- **And sends what its course asks for.** -/
theorem sent_alone (c : Call) (answers : List Arrival) :
    d.sent (d.alone c answers) = asks (begin d.resource c) answers := by
  unfold alone
  rw [sent, step_call]
  exact sends_append_sent_replied d (begin d.resource c) answers

end Desk

end Larder.Teams
