import Larder.Proofs.Blame
import Larder.Proofs.Results
import Larder.World.Action

/-!
# What an answer comes to

A load by one request is answered over several layers: the exchange over HTTP, the envelope in the body,
the data in the envelope, the value that the data stands for. `ByStage` says that the first layer that
fails decides, whatever the later ones would say; so errors of the service are never hidden by data that
comes with them, and are never taken for an outage. The failure of a load keeps its cause, and the kind
of a failure is read off the cause, so the kind is settled by the answer alone.

Teams, the session and the settings are loaded the same way. `Query` describes such a resource: which
requests a load sends, and how the data of an answer is read. What is shown for a query holds of all
three.
-/

namespace Larder

namespace Api

/-- The class of the failures that an error of the service leads to. -/
def ServiceError.kind : ServiceError → FailureKind
  | .transport _ => .transport
  | .http _ _ => .transport
  | .server _ _ => .server
  | .decode _ _ => .other
  | .missingData _ => .other

/-- The status tells success. -/
def HttpAnswer.IsSuccess (a : HttpAnswer) : Prop := 200 ≤ a.status ∧ a.status ≤ 299

/-- The first stage that fails decides what an answer comes to. -/
structure ByStage {α : Type} (operation : String) (d : Decoder α) (a : HttpAnswer)
    (fails : ServiceError → FailureKind → Prop) (succeeds : α → Prop) : Prop where
  /-- The status comes first, whatever the body. -/
  status : ¬ a.IsSuccess → fails (.http operation a.status) .transport
  /-- Next the body has to hold an envelope. -/
  body : a.IsSuccess → Envelope.parse? a.body = none →
    fails (.transport "error decoding response body") .transport
  /-- Then errors count, all of them in their order, even if there is data. -/
  errors : a.IsSuccess → ∀ e, Envelope.parse? a.body = some e → e.errors ≠ [] →
    fails (.server operation e.errors) .server
  /-- Without errors there has to be data. -/
  missing : a.IsSuccess → ∀ e, Envelope.parse? a.body = some e → e.errors = [] →
    e.data = none ∨ e.data = some .null → fails (.missingData operation) .other
  /-- The data has to be of the right shape. -/
  shape : a.IsSuccess → ∀ e j fault, Envelope.parse? a.body = some e → e.errors = [] →
    e.data = some j → j ≠ .null → d j = .error fault → fails (.decode operation fault) .other
  /-- If nothing fails, there is a value. -/
  success : a.IsSuccess → ∀ e j x, Envelope.parse? a.body = some e → e.errors = [] →
    e.data = some j → j ≠ .null → d j = .ok x → succeeds x

section

variable {α : Type} {operation : String} {d : Decoder α} {a : HttpAnswer}

theorem data_of_not_isSuccess (h : ¬ a.IsSuccess) :
    a.data operation = .error (.http operation a.status) := by
  unfold HttpAnswer.IsSuccess at h
  unfold HttpAnswer.data
  exact if_pos (by omega)

theorem data_of_isSuccess (h : a.IsSuccess) : a.data operation
    = match Envelope.parse? a.body with
      | none => .error (.transport "error decoding response body")
      | some e => e.extract operation := by
  unfold HttpAnswer.IsSuccess at h
  unfold HttpAnswer.data
  exact if_neg (by omega)

theorem data_of_envelope (h : a.IsSuccess) {e : Envelope} (hbody : Envelope.parse? a.body = some e) :
    a.data operation = e.extract operation := by
  rw [data_of_isSuccess h, hbody]

theorem extract_of_errors {e : Envelope} (h : e.errors ≠ []) :
    e.extract operation = .error (.server operation e.errors) := by
  unfold Envelope.extract
  exact if_neg (by simpa using h)

theorem extract_of_data {e : Envelope} (h : e.errors = []) {j : Json} (hdata : e.data = some j)
    (hj : j ≠ .null) : e.extract operation = .ok j := by
  unfold Envelope.extract
  rw [h, hdata]
  cases j
  · exact absurd rfl hj
  all_goals rfl

theorem extract_of_no_data {e : Envelope} (h : e.errors = []) (hdata : e.data = none ∨ e.data = some .null) :
    e.extract operation = .error (.missingData operation) := by
  unfold Envelope.extract
  rw [h]
  rcases hdata with hdata | hdata <;> rw [hdata] <;> rfl

/-- **The stages of an answer.** What follows from the error that an answer comes to, follows at the
stage that fails. -/
theorem byStage {fails : ServiceError → FailureKind → Prop} {succeeds : α → Prop}
    (hfails : ∀ e, decoded operation d (a.data operation) = .error e → fails e e.kind)
    (hsucceeds : ∀ x, decoded operation d (a.data operation) = .ok x → succeeds x) :
    ByStage operation d a fails succeeds where
  status h := hfails (.http operation a.status) (by rw [data_of_not_isSuccess h]; rfl)
  body h hbody := hfails (.transport _) (by rw [data_of_isSuccess h, hbody]; rfl)
  errors h e hbody herrors := hfails (.server operation e.errors) (by
    rw [data_of_envelope h hbody, extract_of_errors herrors]
    rfl)
  missing h e hbody herrors hdata := hfails (.missingData operation) (by
    rw [data_of_envelope h hbody, extract_of_no_data herrors hdata]
    rfl)
  shape h e j fault hbody herrors hdata hj hd := hfails (.decode operation fault) (by
    rw [data_of_envelope h hbody, extract_of_data herrors hdata hj]
    simp only [decoded, hd])
  success h e j x hbody herrors hdata hj hd := hsucceeds x (by
    rw [data_of_envelope h hbody, extract_of_data herrors hdata hj]
    simp only [decoded, hd])

end

end Api

theorem Failure.kind_service (resource key : String) (e : Api.ServiceError) :
    (Failure.load resource key (.service e)).kind = e.kind := by
  cases e <;> rfl

/-! ## Loads that end -/

/-- The key is a single one or an alias. -/
def Key.IsOne {κ : Type} (key : Key κ) : Prop := (∃ k, key = .single k) ∨ ∃ a, key = .byAlias a

namespace Busy

variable {κ ν : Type} [EntryKey κ]

theorem name_run (b : Busy κ ν) (ops : List (Op κ ν)) : (b.run ops).name = b.name := by
  induction ops generalizing b with
  | nil => rfl
  | cons op ops ih =>
      rw [run_cons, ih, step_eq]
      rfl

/-- The answer ends a load in a failure of a kind: those who wait for the load are given the failure, it
is held against what was asked for, subscribers are told of it, and no entry is different. -/
structure FailsAs (b : Busy κ ν) (load : PendingLoad κ) (now : Instant)
    (answer : Except Cause (List (κ × ν))) (f : Failure) (kind : FailureKind) : Prop where
  /-- This is the kind of the failure. -/
  kind : f.kind = kind
  /-- Those who wait get it. -/
  given : (b.change (.commit load.seq now answer)).result.ended = some (load, .error f)
  /-- It is held against the key or the alias. -/
  stored : (b.step (.commit load.seq now answer)).cache.failureOf load.signature.key = some f
  /-- It is the one event. -/
  told : b.emits (.commit load.seq now answer) = [.failed load.signature.key f]
  /-- The entries are as they were. -/
  data : (b.step (.commit load.seq now answer)).cache.data = b.cache.data

/-- The answer ends a load well: those who wait for the load are told so, and under each key of the
entries that nothing has touched meanwhile they are merged into what is cached. -/
structure Succeeds (b : Busy κ ν) (load : PendingLoad κ) (now : Instant)
    (answer : Except Cause (List (κ × ν))) (entries : List (κ × ν)) : Prop where
  /-- Those who wait learn that it is done. -/
  given : (b.change (.commit load.seq now answer)).result.ended = some (load, .ok ())
  /-- What was brought is merged into what was cached. -/
  data : ∀ k ∈ entries.map Prod.fst, b.ledger.isSuperseded k load.seq = false →
    b.policy.combine (b.cache.data.get? k) (valuesOf k entries)
      = some ((b.step (.commit load.seq now answer)).cache.data.get? k)

section

variable {b : Busy κ ν} {load : PendingLoad κ}

/-- The failure of a load of one key that nothing has touched, or of an alias, is what is held against
it afterwards. -/
theorem failureOf_step_of_isOne (hb : Reachable b) (hload : load ∈ b.pending)
    (hone : load.signature.key.IsOne)
    (huntouched : ∀ k ∈ load.signature.key.explicit, b.ledger.isSuperseded k load.seq = false)
    (now : Instant) (cause : Cause) :
    (b.step (.commit load.seq now (.error cause))).cache.failureOf load.signature.key
      = some (.load b.name load.signature.key.shown cause) := by
  have hfailure := failureOf_step_failed hb hload now cause
  unfold Cache.failureOf
  -- the failure of a key is looked up under the key, the one of an alias under its name
  rcases hone with ⟨k, hkey⟩ | ⟨a, hkey⟩
  · have hblames : Cache.blames b.ledger load.signature load.seq (.key k) = true := by
      have hk : k ∈ load.signature.key.explicit := by
        rw [hkey]
        exact List.mem_cons_self
      simp only [Cache.blames, huntouched k hk]
      simpa using hk
    have hkept := (hfailure (.key k)).trans (if_pos hblames)
    rw [hkey] at hkept ⊢
    show ([k].findSome? fun k => Ledger.failureOf _ (.key k)) = _
    rw [List.findSome?_cons, hkept]
  · have hblames : Cache.blames b.ledger load.signature load.seq (.named a) = true := by
      unfold Cache.blames
      rw [hkey]
      exact decide_eq_true rfl
    have hkept := (hfailure (.named a)).trans (if_pos hblames)
    rw [hkey] at hkept ⊢
    simp only [Key.asAlias, Option.bind_some, hkept]

theorem failsAs_of_error (hb : Reachable b) (hload : load ∈ b.pending) (hone : load.signature.key.IsOne)
    (huntouched : ∀ k ∈ load.signature.key.explicit, b.ledger.isSuperseded k load.seq = false)
    (now : Instant) (e : Api.ServiceError) :
    b.FailsAs load now (.error (.service e)) (.load b.name load.signature.key.shown (.service e)) e.kind := by
  have hchange := change_commit_of_some ((sound_reachable hb).pending?_eq hload) now
    (.error (.service e) : Except Cause (List (κ × ν)))
  refine ⟨Failure.kind_service _ _ e, ?_, failureOf_step_of_isOne hb hload hone huntouched now _, ?_, ?_⟩
  · rw [hchange]
    rfl
  · unfold emits
    rw [hchange]
    rfl
  · rw [cache_step, hchange]
    rfl

theorem succeeds_of_ok (hb : Reachable b) (hp : b.policy.Total) (hload : load ∈ b.pending) (now : Instant)
    (entries : List (κ × ν)) : b.Succeeds load now (.ok entries) entries := by
  have hsound := sound_reachable hb
  refine ⟨?_, fun k hk hs => ?_⟩
  · rw [change_commit_ok hsound hload, Cache.commit_ok, if_pos (Cache.complete_commitWrites hp)]
    rfl
  · -- every merge gives a value, so the writing reaches all entries
    obtain ⟨reached, rest, hreach⟩ := b.cache.exists_commitReaches b.policy now load entries
    obtain rfl : rest = [] := hreach.complete.1 (Cache.complete_commitWrites hp)
    obtain rfl : entries = reached := by rw [hreach.split, List.append_nil]
    rw [cache_step_commit hsound hload]
    exact Cache.data_commit_of_reached b.name hreach hs hk

end

end Busy

/-! ## Requests and their answers -/

namespace World

variable {κ ν : Type} [EntryKey κ]

/-- The answer to a load whose one request is answered. -/
def answerOf (entries : Answer → Except Api.ServiceError (List (κ × ν))) (a : Answer) :
    Except Cause (List (κ × ν)) :=
  match entries a with
  | .error e => .error (.service e)
  | .ok es => .ok es

/-- A request is answered in the turn of its owner: as soon as it is sent, or the answer is picked up. -/
inductive Answers (w : World) (owner : TaskId) : Fetch κ ν → World → Answer → Prop where
  | sent {request : Api.Request} {w' : World} {a : Answer} (h : w.send owner request = (w', .ok a)) :
      Answers w owner (.unsent request) w' a
  | pickedUp {ticket : Nat} {w' : World} {a : Answer} (h : w.pickUp ticket = (w', some a)) :
      Answers w owner (.waiting ticket) w' a

/-- **A load with one request is answered when its request is.** -/
theorem fetchTurn_of_answers {w w' : World} {i seq : Nat} {s : Slot κ ν} {load : PendingLoad κ}
    {fetch : Fetch κ ν} {waiters : List TaskId} {requests : Key κ → Includes → List Api.Request}
    {entries : Answer → Except Api.ServiceError (List (κ × ν))} {a : Answer}
    (hload : s.load? seq = some ⟨load, .fetching [fetch], waiters⟩)
    (hsource : s.source = .remote requests entries) (h : Answers w (.load i seq) fetch w' a) :
    ∃ w'', fetchTurn w i seq s
      = (w'', s.modifyLoad seq fun t => { t with stage := .answered (answerOf entries a) }, true) := by
  cases h with
  | sent h =>
      cases ha : entries a <;>
        simp [fetchTurn, hload, hsource, lookAfter, h, ha, gathered?, answerOf]
  | pickedUp h =>
      cases ha : entries a <;>
        simp [fetchTurn, hload, hsource, lookAfter, h, ha, gathered?, answerOf]

end World

/-- How a resource is loaded by requests: the operation that they ask for, how the data of an answer is
decoded, and the entries that it stands for. -/
structure Query (α κ ν : Type) [EntryKey κ] where
  /-- The resource, not loaded yet. -/
  resource : Resource κ ν
  /-- The requests of a load. -/
  requests : Key κ → Includes → List Api.Request
  /-- The operation. -/
  operation : String
  /-- How the data is decoded. -/
  decoder : Api.Decoder α
  /-- The entries. -/
  entries : α → List (κ × ν)

namespace Query

variable {α κ ν : Type} [EntryKey κ]

/-- The entries that an answer to a request holds. -/
def read (q : Query α κ ν) (a : World.Answer) : Except Api.ServiceError (List (κ × ν)) :=
  (Api.decoded q.operation q.decoder a).map q.entries

/-- A slot of a world that holds the resource. -/
def slot (q : Query α κ ν) : World.Slot κ ν where
  resource := q.resource
  source := .remote q.requests q.read

/-- A load fetches by one request, and its answer is what the answer to the request holds. -/
structure Fetches (q : Query α κ ν) (load : PendingLoad κ) (a : World.Answer)
    (answer : Except Cause (List (κ × ν))) : Prop where
  /-- One request is sent. -/
  one : ∃ request, q.requests load.signature.key load.signature.includes = [request]
    ∧ request.operation = q.operation
  /-- In a world, the load is answered in the turn in which its request is. -/
  answered : ∀ (w w' : World) (i : Nat) (s : World.Slot κ ν) (fetch : World.Fetch κ ν)
    (waiters : List World.TaskId), s.source = q.slot.source →
    s.load? load.seq = some ⟨load, .fetching [fetch], waiters⟩ →
    World.Answers w (.load i load.seq) fetch w' a →
    ∃ w'', World.fetchTurn w i load.seq s
      = (w'', s.modifyLoad load.seq fun t => { t with stage := .answered answer }, true)

/-- Loads of one key or an alias send one request and end as its answer says, by the first stage that
fails. The resource is in any state that it can come to, and nothing has touched the key since the load
started. -/
def Classifies (q : Query α κ ν) : Prop :=
  let new := Busy.new q.resource.name q.resource.policy
  ∀ (ops : List (Op κ ν)) (load : PendingLoad κ), load ∈ (new.run ops).pending →
    load.signature.key.IsOne →
    (∀ k ∈ load.signature.key.explicit, ¬ new.TouchedDuring ops load k) →
    ∀ (now : Instant) (a : Api.HttpAnswer),
      let b := new.run ops
      let answer := World.answerOf q.read (a.data q.operation)
      let failure := fun e => Failure.load q.resource.name load.signature.key.shown (.service e)
      q.Fetches load (a.data q.operation) answer
        ∧ Api.ByStage q.operation q.decoder a
          (fun e kind => b.FailsAs load now answer (failure e) kind)
          (fun x => b.Succeeds load now answer (q.entries x))

theorem classifies_of (q : Query α κ ν) (hp : q.resource.policy.Total)
    (hone : ∀ key inc, key.IsOne → ∃ request, q.requests key inc = [request]
      ∧ request.operation = q.operation) : q.Classifies := by
  unfold Classifies
  intro new ops load hload hkey huntouched now a b answer failure
  have hb : Busy.Reachable b := (Busy.Reachable.init _ _).run ops
  have hname : b.name = q.resource.name := Busy.name_run _ ops
  have hpolicy : b.policy = q.resource.policy := Busy.policy_run _ ops
  -- what the run did to the key is what the ledger has noted of it
  have hfree : ∀ k ∈ load.signature.key.explicit, b.ledger.isSuperseded k load.seq = false := by
    intro k hk
    exact Bool.eq_false_iff.2 fun hs => huntouched k hk ((Busy.isSuperseded_run_new hload k).1 hs)
  refine ⟨⟨hone _ _ hkey, fun w w' i s fetch waiters hsource hfetch h =>
    World.fetchTurn_of_answers hfetch hsource h⟩, Api.byStage (fun e he => ?_) fun x hx => ?_⟩
  · have hanswer : answer = .error (.service e) := by
      simp only [answer, World.answerOf, read, he]
      rfl
    have hfails := Busy.failsAs_of_error hb hload hkey hfree now e
    rw [hname] at hfails
    rw [hanswer]
    exact hfails
  · have hanswer : answer = .ok (q.entries x) := by
      simp only [answer, World.answerOf, read, hx]
      rfl
    rw [hanswer]
    exact Busy.succeeds_of_ok hb (hpolicy ▸ hp) hload now _

end Query

/-- How teams are loaded. -/
def Teams.query : Query (List Api.TeamRecord) String Team where
  resource := empty
  requests := requests
  operation := "getTeamsList"
  decoder := Api.teamsAnswer
  entries records := records.map fun r => (r.teamId, Team.ofRecord r)

namespace Server

/-- How the session is loaded. -/
def sessionQuery : Query Api.SessionInfo Sole Api.SessionInfo where
  resource := session
  requests _ _ := [sessionRequest]
  operation := "getSessionState"
  decoder := Api.sessionAnswer
  entries s := [(.only, s)]

/-- How the settings are loaded. -/
def settingsQuery : Query Api.ProductSettings Sole Api.ProductSettings where
  resource := settings
  requests _ _ := [settingsRequest]
  operation := "getProductSettings"
  decoder := Api.settingsAnswer
  entries s := [(.only, s)]

end Server

theorem Teams.classifies_query : Teams.query.Classifies := by
  refine Teams.query.classifies_of Teams.total_policy fun key inc hkey => ?_
  rcases hkey with ⟨id, rfl⟩ | ⟨a, rfl⟩
  · exact ⟨_, rfl, rfl⟩
  · exact ⟨_, rfl, rfl⟩

/--
**What a load by one request comes to is decided by the first stage that fails.**

Teams, the session and the settings of a world are loaded as their queries say. Let any of them load one
key or an alias, and let the service give any answer: a status other than success is a failure of the
transport, whatever the body, and so is a body without an envelope; otherwise errors that the service
reports are a failure of the server with exactly these messages, even if there is data; otherwise the
load fails for another reason if there is no data or the data has another shape, and otherwise it
succeeds with the value that was decoded. Unless something else has touched the key meanwhile, those who
wait are given the same failure that is held against the key or the alias and that is published, and the
entries are as they were.
-/
theorem failures_classified_by_first_stage :
    (World.teams = .teams Teams.query.slot ∧ World.session = .session Server.sessionQuery.slot
        ∧ World.settings = .settings Server.settingsQuery.slot)
      ∧ Teams.query.Classifies ∧ Server.sessionQuery.Classifies ∧ Server.settingsQuery.Classifies := by
  have htotal : ∀ ν : Type, ({} : Policy Sole ν).Total := fun _ _ _ h => by cases h
  refine ⟨⟨rfl, rfl, rfl⟩, Teams.classifies_query, ?_, ?_⟩
  · exact Server.sessionQuery.classifies_of (htotal _) fun _ _ _ => ⟨_, rfl, rfl⟩
  · exact Server.settingsQuery.classifies_of (htotal _) fun _ _ _ => ⟨_, rfl, rfl⟩

/-- A team is loaded, and the answer holds data and an error. The load fails with what the service has
reported. -/
theorem failures_classified_by_first_stage_denied :
    let a : Api.HttpAnswer :=
      ⟨200, "\x7b\"data\":\x7b\"teams\":[]\x7d,\"errors\":[\x7b\"message\":\"denied\"\x7d]\x7d"⟩
    let load : PendingLoad String := ⟨⟨.single "a", .none⟩, 1, [.key "a"]⟩
    let b := (Busy.new Teams.empty.name Teams.policy).run [.start (.single "a") .none false]
    let f : Failure := .load "teams" load.signature.key.shown (.service (.server "getTeamsList" ["denied"]))
    load ∈ b.pending ∧ f.kind = .server
      ∧ b.FailsAs load ⟨0, 0⟩ (World.answerOf Teams.entries (a.data "getTeamsList")) f .server := by
  intro a load b f
  have hload : load ∈ b.pending := by decide +kernel
  have huntouched : ∀ k ∈ load.signature.key.explicit,
      ¬ (Busy.new Teams.empty.name Teams.policy).TouchedDuring [.start (.single "a") .none false] load k := by
    rintro k _ (⟨_, h⟩ | h)
    · exact h
    · exact h
  obtain ⟨_, hteams, _⟩ := failures_classified_by_first_stage
  obtain ⟨_, hstages⟩ := hteams _ load hload (Or.inl ⟨"a", rfl⟩) huntouched ⟨0, 0⟩ a
  have hbody : (Api.Envelope.parse? a.body).map Api.Envelope.errors = some ["denied"] := by decide +kernel
  obtain ⟨e, he, herrors⟩ := Option.map_eq_some_iff.1 hbody
  have hfails := hstages.errors ⟨by decide, by decide⟩ e he (by rw [herrors]; decide)
  rw [herrors] at hfails
  exact ⟨hload, rfl, hfails⟩

end Larder
