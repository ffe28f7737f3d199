import Larder.Proofs.Errands
import Larder.Proofs.Invalidation

/-!
# Creating and changing teams

To create a team and to change one are nearly the same: the fields are sent, the team that the service
answers with is cached, and its permissions are set if they are not yet as wanted. A team that was
created bears the time as its mark. One that was changed is marked outdated at the end.

`Mutation` stands for either. After the first answer there are four ways to go on, and
`Mutation.Course` lists them: the permissions are as wanted; or a second request is sent, and it is
still open, or has failed, or has brought the permissions that were granted.

If the second request fails, the operation ends there. A team that was changed is then cached with what
the first answer brought, and it is *not* marked: it counts as fresh, though half of the change is
missing.
-/

namespace Larder.Teams

/-! ## The same permissions -/

/-- Permissions are the same if one list is a permutation of the other. -/
theorem samePermissions_iff_perm {a b : List String} : samePermissions a b = true ↔ a.Perm b := by
  have hswap : ∀ x y : String, compare y x = (compare x y).swap := fun _ _ => Std.OrientedCmp.eq_swap
  have htotal : ∀ x y : String, ((compare x y).isLE || (compare y x).isLE) = true := by
    intro x y
    rw [hswap x y]
    cases compare x y <;> rfl
  have hanti : ∀ x y : String, (compare x y).isLE = true → (compare y x).isLE = true → x = y := by
    intro x y hxy hyx
    rw [hswap x y] at hyx
    cases hc : compare x y with
    | eq => exact Std.LawfulEqCmp.compare_eq_iff_eq.1 hc
    | lt => rw [hc] at hyx; exact absurd hyx (by decide)
    | gt => rw [hc] at hxy; exact absurd hxy (by decide)
  have hsorted : ∀ l : List String, (l.mergeSort fun x y => (compare x y).isLE).Pairwise
      fun x y => (compare x y).isLE = true :=
    List.pairwise_mergeSort (fun _ _ _ => Std.TransCmp.isLE_trans) htotal
  -- sorting permutes, and sorted lists that are permutations of each other are equal
  have hpa := List.mergeSort_perm a fun x y => (compare x y).isLE
  have hpb := List.mergeSort_perm b fun x y => (compare x y).isLE
  unfold samePermissions
  rw [beq_iff_eq]
  constructor
  · intro heq
    dsimp only at heq
    rw [heq] at hpa
    exact hpa.symm.trans hpb
  · intro hperm
    exact List.Perm.eq_of_pairwise (fun x y _ _ => hanti x y) (hsorted a) (hsorted b)
      ((hpa.trans hperm).trans hpb.symm)

/-! ## What the steps of an operation do to one team -/

section

variable {r : Resource String Team} {id : String} {t : Team}

theorem data_setMany_single (hp : r.policy = policy) (now : Instant) (id : String) (t : Team) :
    (r.setMany now [(id, t)]).1.cache.data
      = r.cache.data.insert id (Team.merge (r.cache.data.get? id) t) := by
  unfold Resource.setMany
  rw [hp]
  rfl

/-- A team that was written is fresh; the groups of fields stay what they were. -/
theorem metaOf_setMany_single (hp : r.policy = policy) (now : Instant) (id : String) (t : Team) :
    (r.setMany now [(id, t)]).1.cache.ledger.metaOf (.key id)
      = (r.cache.ledger.metaOf (.key id)).afterWrite now := by
  have hledger : (r.setMany now [(id, t)]).1.cache.ledger
      = ((r.cache.ledger.draw.stamp id (r.cache.ledger.seq + 1)).markWritten (.key id) now).settle := by
    unfold Resource.setMany
    rw [hp]
    rfl
  rw [hledger, Ledger.metaOf_settle]
  exact (Ledger.metaOf_setMeta _ _ _ _).trans (if_pos rfl)

/-- A change in place is cached. -/
theorem get?_update (h : r.cache.data.get? id = some t) (f : Team → Team) :
    (r.update id f).1.cache.data.get? id = some (f t) := by
  show (r.cache.update id f).cache.data.get? id = _
  rw [Cache.data_update h, Shelf.get?_insert, if_pos rfl]

/-- A team that is marked outdated is outdated, whatever it is asked for with. -/
theorem isOutdated_markOutdated (r : Resource String Team) (id : String) (inc : Includes) :
    (r.markOutdated (.single id)).cache.isOutdated (.single id) inc = true := by
  have hinv : (r.atWork []).Invalidates (.key id) (.markOutdated (.single id)) := List.mem_cons_self
  rw [Cache.isOutdated_single]
  exact Ledger.isOutdated_of_not_fresh (Busy.not_fresh_of_invalidates hinv) inc

/-- Nothing is sent for a cached team that has the permissions. -/
theorem grant_of_perm (h : r.cache.data.get? id = some t) {permissions : List String}
    (hperm : permissions.Perm t.permissions) (sequel : Sequel) :
    grant r id permissions sequel = conclude r sequel := by
  unfold grant
  simp only [h, samePermissions_iff_perm.2 hperm.symm, ↓reduceIte]

/-- For one that has others a request is sent. -/
theorem grant_of_not_perm (h : r.cache.data.get? id = some t) {permissions : List String}
    (hperm : ¬ permissions.Perm t.permissions) (sequel : Sequel) :
    grant r id permissions sequel
      = (r, .send (permissionsRequest id permissions) (.granting id sequel)) := by
  have hsame : samePermissions t.permissions permissions = false :=
    Bool.eq_false_iff.2 fun hsame => hperm (samePermissions_iff_perm.1 hsame).symm
  unfold grant
  simp only [h, hsame]
  rfl

/-- The permissions that were granted are put into a cached team, and the operation ends. -/
theorem answer_granting (h : r.cache.data.get? id = some t) (now : Instant) (sequel : Sequel)
    {reply : Except Api.ServiceError Json} {granted : List String}
    (hreply : Api.decoded "setSubjectPermissions" Api.permissionsAnswer reply = .ok granted) :
    answer r now (.granting id sequel) reply
      = conclude (r.update id fun t => { t with permissions := granted }).1 sequel := by
  have hdone : (r.update id fun t => { t with permissions := granted }).2 = true := by
    unfold Resource.update Resource.apply Cache.update
    rw [h]
  simp only [answer, hreply]
  rcases hupdate : r.update id fun t => { t with permissions := granted } with ⟨r', done⟩
  obtain rfl : done = true := by rw [hupdate] at hdone; exact hdone
  rfl

end

/-! ## The course of a mutation -/

/-- An operation that sends the fields of a team. -/
inductive Mutation where
  /-- It creates the team. -/
  | creation
  /-- It changes the team. -/
  | update
deriving DecidableEq

namespace Mutation

/-- The call for it. -/
def call : Mutation → TeamInput → Call
  | creation => .create
  | update => .update

/-- The name of its request. -/
def operation : Mutation → String
  | creation => "createTeam"
  | update => "updateTeam"

/-- The document of its request. -/
def document : Mutation → String
  | creation => Api.Documents.createTeam
  | update => Api.Documents.updateTeam

/-- Where it rests until its first request is answered. -/
def stage : Mutation → TeamInput → Stage
  | creation => .creating
  | update => .updating

/-- What it does once the permissions are as wanted. -/
def sequel : Mutation → String → Sequel
  | creation => .created
  | update => .updated

/-- The mark that the team bears. -/
def mark (now : Instant) : Mutation → Option Instant
  | creation => some now
  | update => none

/-- Its first request. -/
def request (m : Mutation) (r : Resource String Team) (input : TeamInput) : Api.Request :=
  changeRequest r m.operation m.document input

/-- The team as the service describes it, with its mark. -/
def described (m : Mutation) (now : Instant) (record : Api.TeamRecord) : Team :=
  { Team.ofRecord record with createdAt := m.mark now }

/-- What is cached once the service has described the team: what was cached before stays where the
answer has nothing. -/
def written (m : Mutation) (r : Resource String Team) (now : Instant) (record : Api.TeamRecord) : Team :=
  Team.merge (r.cache.data.get? record.teamId) (m.described now record)

/-- The teams with the described one written. -/
def store (m : Mutation) (r : Resource String Team) (now : Instant) (record : Api.TeamRecord) :
    Resource String Team :=
  (r.setMany now [(record.teamId, m.described now record)]).1

/-- The teams at the end: a team that was changed is marked outdated. -/
def close (r : Resource String Team) (id : String) : Mutation → Resource String Team
  | creation => r
  | update => r.markOutdated (.single id)

/-- Where a mutation stands, and what it has sent, from when its team is cached on. -/
inductive Course (m : Mutation) (r : Resource String Team) (id : String) (t : Team)
    (permissions : List String) (more : List Arrival) :
    Resource String Team × Next → List Api.Request → Prop
  /-- The permissions are as wanted. -/
  | unchanged (hperm : permissions.Perm t.permissions) :
    Course m r id t permissions more (m.close r id, .finished (.ok (.team t))) []
  /-- The second request is not answered yet. -/
  | waiting (hperm : ¬ permissions.Perm t.permissions) (hmore : more = []) :
    Course m r id t permissions more
      (r, .send (permissionsRequest id permissions) (.granting id (m.sequel id)))
      [permissionsRequest id permissions]
  /-- It has failed. -/
  | refused (hperm : ¬ permissions.Perm t.permissions) {a : Arrival} {rest : List Arrival}
      {e : Api.ServiceError} (hmore : more = a :: rest)
      (hreply : Api.decoded "setSubjectPermissions" Api.permissionsAnswer a.2 = .error e) :
    Course m r id t permissions more (r, .finished (.error (.service e)))
      [permissionsRequest id permissions]
  /-- It has brought permissions. -/
  | granted (hperm : ¬ permissions.Perm t.permissions) {a : Arrival} {rest : List Arrival}
      {granted : List String} (hmore : more = a :: rest)
      (hreply : Api.decoded "setSubjectPermissions" Api.permissionsAnswer a.2 = .ok granted) :
    Course m r id t permissions more
      (m.close (r.update id fun t => { t with permissions := granted }).1 id,
        .finished (.ok (.team { t with permissions := granted })))
      [permissionsRequest id permissions]

section

variable (m : Mutation) {r : Resource String Team} {id : String} {t : Team}

theorem begin_call (r : Resource String Team) (input : TeamInput) :
    begin r (m.call input) = (r, .send (m.request r input) (m.stage input)) := by
  cases m <;> rfl

/-- The answer to the first request: once the service has described the team, it is written and its
permissions are seen to. -/
theorem answer_stage (r : Resource String Team) (now : Instant) (input : TeamInput)
    (reply : Except Api.ServiceError Json) :
    answer r now (m.stage input) reply
      = match Api.decoded m.operation Api.teamAnswer reply with
        | .error e => (r, .finished (.error (.service e)))
        | .ok record =>
          grant (m.store r now record) record.teamId input.permissions (m.sequel record.teamId) := by
  cases m <;> rfl

theorem get?_store (hp : r.policy = policy) (now : Instant) (record : Api.TeamRecord) :
    (m.store r now record).cache.data.get? record.teamId = some (m.written r now record) := by
  unfold store
  rw [data_setMany_single hp, Shelf.get?_insert, if_pos rfl]
  rfl

theorem metaOf_store (hp : r.policy = policy) (now : Instant) (record : Api.TeamRecord) :
    (m.store r now record).cache.ledger.metaOf (.key record.teamId)
      = (r.cache.ledger.metaOf (.key record.teamId)).afterWrite now :=
  metaOf_setMany_single hp now _ _

/-- At the end the team is still cached. -/
theorem get?_close (r : Resource String Team) (id : String) :
    (m.close r id).cache.data.get? id = r.cache.data.get? id := by
  cases m <;> rfl

theorem conclude_sequel (h : r.cache.data.get? id = some t) :
    conclude r (m.sequel id) = (m.close r id, .finished (.ok (.team t))) := by
  cases m with
  | creation =>
      simp only [sequel, conclude, h]
      rfl
  | update =>
      have hmarked : (r.markOutdated (.single id)).cache.data.get? id = some t := h
      simp only [sequel, conclude, hmarked]
      rfl

/-- **A mutation whose team is cached goes on in one of the four ways.** -/
theorem course (h : r.cache.data.get? id = some t) (permissions : List String) (more : List Arrival) :
    m.Course r id t permissions more (proceed (grant r id permissions (m.sequel id)) more)
      (asks (grant r id permissions (m.sequel id)) more) := by
  by_cases hperm : permissions.Perm t.permissions
  · rw [grant_of_perm h hperm, m.conclude_sequel h, proceed_finished, asks_finished]
    exact .unchanged hperm
  · -- the second request is sent, and the next answer is for it
    rw [grant_of_not_perm h hperm]
    cases more with
    | nil => exact .waiting hperm rfl
    | cons a rest =>
        rw [proceed_send, asks_send]
        cases hreply : Api.decoded "setSubjectPermissions" Api.permissionsAnswer a.2 with
        | error e =>
            have hanswer : answer r a.1 (.granting id (m.sequel id)) a.2
                = (r, .finished (.error (.service e))) := by
              simp only [answer, hreply, failed]
            rw [hanswer, proceed_finished, asks_finished]
            exact .refused hperm rfl hreply
        | ok granted =>
            have hcached := get?_update h fun t => { t with permissions := granted }
            rw [answer_granting h a.1 _ hreply, m.conclude_sequel hcached, proceed_finished,
              asks_finished]
            exact .granted hperm rfl hreply

section

variable {m} {permissions : List String} {more : List Arrival}
  {state : Resource String Team × Next} {requests : List Api.Request}
  (h : m.Course r id t permissions more state requests)

include h

/-- A second request is sent if the permissions are not as wanted, and no other. -/
theorem Course.requests_eq :
    requests = if permissions.Perm t.permissions then [] else [permissionsRequest id permissions] := by
  cases h with
  | unchanged hperm => rw [if_pos hperm]
  | waiting hperm _ | refused hperm _ _ | granted hperm _ _ => rw [if_neg hperm]

theorem Course.loads : state.2.loads = [] := by
  cases h with
  | unchanged _ | waiting _ _ | refused _ _ _ | granted _ _ _ => rfl

theorem Course.of_perm (ht : r.cache.data.get? id = some t) (hperm : permissions.Perm t.permissions) :
    state.1.cache.data.get? id = some t ∧ state.2 = .finished (.ok (.team t)) := by
  cases h with
  | unchanged _ => exact ⟨(m.get?_close r id).trans ht, rfl⟩
  | waiting hother _ | refused hother _ _ | granted hother _ _ => exact absurd hperm hother

theorem Course.of_open (hother : ¬ permissions.Perm t.permissions) (hmore : more = []) :
    state.2 = .send (permissionsRequest id permissions) (.granting id (m.sequel id)) := by
  cases h with
  | unchanged hperm => exact absurd hperm hother
  | waiting _ _ => rfl
  | refused _ hsome _ | granted _ hsome _ => cases hmore.symm.trans hsome

theorem Course.of_granted (ht : r.cache.data.get? id = some t)
    (hother : ¬ permissions.Perm t.permissions) {a : Arrival} {rest : List Arrival}
    (hmore : more = a :: rest) {granted : List String}
    (hreply : Api.decoded "setSubjectPermissions" Api.permissionsAnswer a.2 = .ok granted) :
    state.1.cache.data.get? id = some { t with permissions := granted }
      ∧ state.2 = .finished (.ok (.team { t with permissions := granted })) := by
  cases h with
  | unchanged hperm => exact absurd hperm hother
  | waiting _ hnil => cases hnil.symm.trans hmore
  | refused _ hfirst herror =>
      obtain ⟨rfl, rfl⟩ := List.cons.inj (hfirst.symm.trans hmore)
      cases herror.symm.trans hreply
  | granted _ hfirst hok =>
      obtain ⟨rfl, rfl⟩ := List.cons.inj (hfirst.symm.trans hmore)
      obtain rfl := Except.ok.inj (hok.symm.trans hreply)
      exact ⟨(m.get?_close _ _).trans (get?_update ht _), rfl⟩

theorem Course.of_refused (ht : r.cache.data.get? id = some t)
    (hother : ¬ permissions.Perm t.permissions) {a : Arrival} {rest : List Arrival}
    (hmore : more = a :: rest) {e : Api.ServiceError}
    (hreply : Api.decoded "setSubjectPermissions" Api.permissionsAnswer a.2 = .error e) :
    state.1.cache.data.get? id = some t ∧ state.2 = .finished (.error (.service e)) := by
  cases h with
  | unchanged hperm => exact absurd hperm hother
  | waiting _ hnil => cases hnil.symm.trans hmore
  | refused _ hfirst herror =>
      obtain ⟨rfl, rfl⟩ := List.cons.inj (hfirst.symm.trans hmore)
      obtain rfl := Except.error.inj (herror.symm.trans hreply)
      exact ⟨ht, rfl⟩
  | granted _ hfirst hok =>
      obtain ⟨rfl, rfl⟩ := List.cons.inj (hfirst.symm.trans hmore)
      cases hok.symm.trans hreply

/-- **A team that was changed is outdated once the change has succeeded.** If the change fails on its
way, what it has written stays and is not marked. -/
theorem Course.outdated (hm : m = .update) :
    (more ≠ [] → ∃ result, state.2 = .finished result)
      ∧ (∀ y, state.2 = .finished (.ok y) → ∀ inc, state.1.cache.isOutdated (.single id) inc = true)
      ∧ (∀ trouble, state.2 = .finished (.error trouble) → state.1 = r) := by
  subst hm
  cases h with
  | unchanged hperm =>
      refine ⟨fun _ => ⟨_, rfl⟩, fun _ _ inc => isOutdated_markOutdated _ id inc, fun _ h => ?_⟩
      cases h
  | waiting hperm hmore =>
      refine ⟨fun hsome => absurd hmore hsome, fun _ h => ?_, fun _ h => ?_⟩
      · cases h
      · cases h
  | refused hperm hmore hreply =>
      refine ⟨fun _ => ⟨_, rfl⟩, fun _ h => ?_, fun _ _ => rfl⟩
      cases h
  | granted hperm hmore hreply =>
      refine ⟨fun _ => ⟨_, rfl⟩, fun _ _ inc => isOutdated_markOutdated _ id inc, fun _ h => ?_⟩
      cases h

end

/-- If the first request fails, nothing has happened. -/
theorem run_alone_error (d : Desk) (input : TeamInput) (now : Instant)
    {reply : Except Api.ServiceError Json} {e : Api.ServiceError}
    (hreply : Api.decoded m.operation Api.teamAnswer reply = .error e) (more : List Arrival) :
    d.run (d.alone (m.call input) ((now, reply) :: more))
      = d.withErrand (d.resource, .finished (.error (.service e))) := by
  rw [Desk.run_alone, begin_call, proceed_send, answer_stage, hreply]
  dsimp only
  rw [proceed_finished]

/-- If it succeeds, the team is written and the mutation goes on in one of the four ways. -/
theorem run_alone_ok (d : Desk) (hp : d.resource.policy = policy) (input : TeamInput) (now : Instant)
    {reply : Except Api.ServiceError Json} {record : Api.TeamRecord}
    (hreply : Api.decoded m.operation Api.teamAnswer reply = .ok record) (more : List Arrival) :
    ∃ state requests,
      m.Course (m.store d.resource now record) record.teamId (m.written d.resource now record)
        input.permissions more state requests
      ∧ d.run (d.alone (m.call input) ((now, reply) :: more)) = d.withErrand state
      ∧ d.sent (d.alone (m.call input) ((now, reply) :: more))
        = m.request d.resource input :: requests := by
  refine ⟨_, _, m.course (m.get?_store hp now record) input.permissions more, ?_, ?_⟩
  · rw [Desk.run_alone, begin_call, proceed_send, answer_stage, hreply]
  · rw [Desk.sent_alone, begin_call, asks_send, answer_stage, hreply]

end

end Mutation

/-! ## What a caller can rely on -/

section

variable {d : Desk}

/--
**What is sent for a new or changed team, and what it becomes.**

The teams are in any state that they can come to, an operation creates a team or changes one, and
nothing comes in between. The service describes the team. A second request goes out exactly if the
permissions it was asked for are not those of the team described, in any order and repetitions counted;
no load is started. The team is cached, merged over what was cached before. The operation yields what is
cached then: as it is if nothing was sent, and else with the permissions that were granted. It fails
only if the second request does. A team that was created bears the time.
-/
theorem mutation_yields_granted (hd : Reached d.busy) (m : Mutation) (input : TeamInput) (now : Instant)
    {reply : Except Api.ServiceError Json} {record : Api.TeamRecord}
    (hreply : Api.decoded m.operation Api.teamAnswer reply = .ok record) (more : List Arrival) :
    let moves := d.alone (m.call input) ((now, reply) :: more)
    let d' := d.run moves
    let cached := d'.resource.cache.data.get? record.teamId
    let written := m.written d.resource now record
    d.sent moves = m.request d.resource input ::
        (if input.permissions.Perm record.teamPermissions then []
          else [permissionsRequest record.teamId input.permissions])
      ∧ d'.pending = d.pending
      ∧ written.permissions = record.teamPermissions
      ∧ (m = .creation → written.createdAt = some now)
      ∧ (input.permissions.Perm record.teamPermissions →
        cached = some written ∧ d'.errands = d.errands ++ [.finished (.ok (.team written))])
      ∧ (¬ input.permissions.Perm record.teamPermissions → more = [] →
        d'.errands = d.errands ++ [.send (permissionsRequest record.teamId input.permissions)
          (.granting record.teamId (m.sequel record.teamId))])
      ∧ (¬ input.permissions.Perm record.teamPermissions → ∀ a rest, more = a :: rest →
        (∀ granted, Api.decoded "setSubjectPermissions" Api.permissionsAnswer a.2 = .ok granted →
          cached = some { written with permissions := granted }
            ∧ d'.errands = d.errands ++ [.finished (.ok (.team { written with permissions := granted }))])
        ∧ (∀ e, Api.decoded "setSubjectPermissions" Api.permissionsAnswer a.2 = .error e →
          cached = some written ∧ d'.errands = d.errands ++ [.finished (.error (.service e))])) := by
  intro moves d' cached written
  have hp : d.resource.policy = policy := hd.sane.policy
  have hstored := m.get?_store hp now record
  have hpermissions : written.permissions = record.teamPermissions := by
    show (Team.merge _ _).permissions = _
    cases d.resource.cache.data.get? record.teamId <;> rfl
  have hmark : m = .creation → written.createdAt = some now := by
    rintro rfl
    show (Team.merge _ _).createdAt = _
    cases d.resource.cache.data.get? record.teamId <;> rfl
  obtain ⟨state, requests, hcourse, hrun, hsent⟩ := m.run_alone_ok d hp input now hreply more
  have hrun : d' = d.withErrand state := hrun
  have hcached : cached = state.1.cache.data.get? record.teamId := by
    show d'.resource.cache.data.get? record.teamId = _
    rw [hrun]
    rfl
  have hend : d'.errands = d.errands ++ [state.2] := by
    rw [hrun]
    rfl
  have hpending : d'.pending = d.pending := by
    rw [hrun]
    exact d.pending_withErrand hcourse.loads
  rw [hsent, hcached, hend, ← hpermissions, hcourse.requests_eq]
  refine ⟨rfl, hpending, rfl, hmark, fun hperm => ?_, fun hother hmore => ?_, fun hother a rest hmore => ?_⟩
  · obtain ⟨hcached, hnext⟩ := hcourse.of_perm hstored hperm
    exact ⟨hcached, by rw [hnext]⟩
  · rw [hcourse.of_open hother hmore]
  · refine ⟨fun granted hok => ?_, fun e herror => ?_⟩
    · obtain ⟨hcached, hnext⟩ := hcourse.of_granted hstored hother hmore hok
      exact ⟨hcached, by rw [hnext]⟩
    · obtain ⟨hcached, hnext⟩ := hcourse.of_refused hstored hother hmore herror
      exact ⟨hcached, by rw [hnext]⟩

/-- A team with further parameters is cached, and a change asks for a permission that the service has
not described. The second request is sent; the team is yielded with the permissions as they were granted
and keeps its parameters. -/
theorem mutation_yields_granted_changed :
    let input : TeamInput := { teamId := "a", permissions := ["q", "p", "q"] }
    let described : Except Api.ServiceError Json :=
      .ok (.obj [("team", .obj [("teamId", .str "a"), ("teamPermissions", .strings ["q", "p"])])])
    let granted : Except Api.ServiceError Json :=
      .ok (.obj [("permissions", .arr [.obj [("id", .str "q")], .obj [("id", .str "p")]])])
    let d := ({} : Desk).run [.load (.single "a") .none false,
      .loaded 1 ⟨0, 0⟩ [.ok (.obj [("teams", .arr [.obj [("teamId", .str "a"),
        ("metaParameters", .obj [])]])])]]
    let moves := d.alone (.update input) [(⟨1, 0⟩, described), (⟨2, 0⟩, granted)]
    let team : Team := { teamId := "a", permissions := ["q", "p"], metaParameters := some [] }
    d.sent moves = [Mutation.update.request d.resource input, permissionsRequest "a" ["q", "p", "q"]]
      ∧ (d.run moves).resource.cache.data.get? "a" = some team
      ∧ (d.run moves).errands = [.finished (.ok (.team team))] := by
  intro input described granted d moves team
  have hreached : Reached d.busy := Desk.reached_run _
  have hdescribed : Api.decoded "updateTeam" Api.teamAnswer described
      = .ok ⟨"a", none, none, ["q", "p"], none⟩ := by rfl
  have hgranted : Api.decoded "setSubjectPermissions" Api.permissionsAnswer granted
      = .ok ["q", "p"] := by rfl
  have hother : ¬ input.permissions.Perm ["q", "p"] := by decide
  obtain ⟨hsent, _, _, _, _, _, hmore⟩ := mutation_yields_granted hreached .update input ⟨1, 0⟩
    hdescribed [(⟨2, 0⟩, granted)]
  obtain ⟨hcached, hended⟩ := (hmore hother _ _ rfl).1 ["q", "p"] hgranted
  exact ⟨hsent.trans (by rw [if_neg hother]), hcached, hended⟩

/--
**When a changed team is outdated.**

The teams are in any state that they can come to, a team is changed, and nothing comes in between. If
the request fails, the teams are as before. If the service describes the team, the operation ends with
the next answer at the latest; when it has ended, the team is outdated for all includes exactly if the
operation succeeded. If it failed, the team counts as fresh for the includes that it was loaded with.
-/
theorem outdated_after_update_iff (hd : Reached d.busy) (input : TeamInput) (now : Instant)
    (reply : Except Api.ServiceError Json) (more : List Arrival) :
    let d' := d.run (d.alone (.update input) ((now, reply) :: more))
    let ended := fun result => d'.errands = d.errands ++ [.finished result]
    (∀ e, Api.decoded "updateTeam" Api.teamAnswer reply = .error e →
        d'.resource = d.resource ∧ d'.pending = d.pending ∧ ended (.error (.service e)))
      ∧ ∀ record, Api.decoded "updateTeam" Api.teamAnswer reply = .ok record →
        let outdated := d'.resource.cache.isOutdated (.single record.teamId)
        (more ≠ [] → ∃ result, ended result)
          ∧ ∀ result, ended result →
            ((∀ inc, outdated inc = true) ↔ ∃ team, result = .ok team)
              ∧ ∀ trouble, result = .error trouble → ∀ inc, outdated inc
                = !inc.coveredBy (d.resource.cache.ledger.metaOf (.key record.teamId)).includes := by
  intro d' ended
  have hp : d.resource.policy = policy := hd.sane.policy
  refine ⟨fun e herror => ?_, fun record hok => ?_⟩
  · have hrun : d' = _ := Mutation.update.run_alone_error d input now herror more
    refine ⟨by rw [hrun]; rfl, by rw [hrun]; exact d.pending_withErrand rfl, ?_⟩
    show d'.errands = _
    rw [hrun]
    rfl
  · intro outdated
    obtain ⟨state, requests, hcourse, hrun, _⟩ := Mutation.update.run_alone_ok d hp input now hok more
    have hrun : d' = d.withErrand state := hrun
    have hend : ∀ result, ended result ↔ state.2 = .finished result := by
      intro result
      show d'.errands = _ ↔ _
      rw [hrun]
      exact d.errands_withErrand_iff state _
    have houtdated : ∀ inc, outdated inc = state.1.cache.isOutdated (.single record.teamId) inc := by
      intro inc
      show d'.resource.cache.isOutdated _ _ = _
      rw [hrun]
      rfl
    obtain ⟨hends, hmarked, hunmarked⟩ := hcourse.outdated rfl
    refine ⟨fun hmore => (hends hmore).imp fun result h => (hend result).2 h, fun result hresult => ?_⟩
    have hresult := (hend result).1 hresult
    cases result with
    | ok y =>
        refine ⟨iff_of_true (fun inc => ?_) ⟨y, rfl⟩, fun _ herror => by cases herror⟩
        rw [houtdated]
        exact hmarked y hresult inc
    | error trouble =>
        -- what was written is fresh, and nothing has marked it
        have hfresh : ∀ inc, outdated inc
            = !inc.coveredBy (d.resource.cache.ledger.metaOf (.key record.teamId)).includes := by
          intro inc
          rw [houtdated, hunmarked trouble hresult, Cache.isOutdated_single, Ledger.isOutdated_eq,
            Mutation.metaOf_store _ hp]
          rfl
        refine ⟨iff_of_false (fun hall => ?_) ?_, fun _ _ => hfresh⟩
        · have hself := hall (d.resource.cache.ledger.metaOf (.key record.teamId)).includes
          rw [hfresh, Includes.coveredBy_self] at hself
          cases hself
        · rintro ⟨y, hy⟩
          cases hy

/-- A cached team is changed, and its permissions are set. It is outdated for all includes. -/
theorem outdated_after_update_granted :
    let input : TeamInput := { teamId := "a", permissions := ["p"] }
    let described : Except Api.ServiceError Json := .ok (.obj [("team", .obj [("teamId", .str "a")])])
    let granted : Except Api.ServiceError Json :=
      .ok (.obj [("permissions", .arr [.obj [("id", .str "p")]])])
    let d := ({} : Desk).run [.load (.single "a") .none false,
      .loaded 1 ⟨0, 0⟩ [.ok (.obj [("teams", .arr [.obj [("teamId", .str "a")]])])]]
    let d' := d.run (d.alone (.update input) [(⟨1, 0⟩, described), (⟨2, 0⟩, granted)])
    d.resource.cache.isOutdated (.single "a") .none = false
      ∧ ∀ inc, d'.resource.cache.isOutdated (.single "a") inc = true := by
  intro input described granted d d'
  have hreached : Reached d.busy := Desk.reached_run _
  have hdescribed : Api.decoded "updateTeam" Api.teamAnswer described
      = .ok ⟨"a", none, none, [], none⟩ := by rfl
  obtain ⟨_, hafter⟩ := outdated_after_update_iff hreached input ⟨1, 0⟩ described [(⟨2, 0⟩, granted)]
  obtain ⟨hends, houtdated⟩ := hafter _ hdescribed
  obtain ⟨result, hresult⟩ := hends (List.cons_ne_nil _ _)
  have hmarked : d'.resource.cache.isOutdated (.single "a") .none = true := by decide +kernel
  cases result with
  | error trouble =>
      -- it would be fresh then
      have hfresh := (houtdated _ hresult).2 trouble rfl .none
      rw [hmarked] at hfresh
      exact absurd hfresh (by decide +kernel)
  | ok y => exact ⟨by decide +kernel, (houtdated _ hresult).1.2 ⟨y, rfl⟩⟩

/-- The same change, but the permissions cannot be set. The operation fails, the team is cached as the
service has described it, and it is fresh. -/
theorem fresh_after_update_refused :
    let input : TeamInput := { teamId := "a", teamName := some "A", permissions := ["p"] }
    let described : Except Api.ServiceError Json :=
      .ok (.obj [("team", .obj [("teamId", .str "a"), ("teamName", .str "A")])])
    let d := ({} : Desk).run [.load (.single "a") .none false,
      .loaded 1 ⟨0, 0⟩ [.ok (.obj [("teams", .arr [.obj [("teamId", .str "a")]])])]]
    let d' := d.run (d.alone (.update input) [(⟨1, 0⟩, described),
      (⟨2, 0⟩, .error (.http "setSubjectPermissions" 503))])
    d'.resource.cache.data.get? "a" = some { teamId := "a", teamName := some "A" }
      ∧ d'.errands = [.finished (.error (.service (.http "setSubjectPermissions" 503)))]
      ∧ d'.resource.cache.isOutdated (.single "a") .none = false := by
  intro input described d d'
  have hdescribed : Api.decoded "updateTeam" Api.teamAnswer described
      = .ok ⟨"a", some "A", none, [], none⟩ := by rfl
  obtain ⟨state, _, hcourse, hrun, _⟩ := Mutation.update.run_alone_ok d rfl input ⟨1, 0⟩ hdescribed
    [(⟨2, 0⟩, .error (.http "setSubjectPermissions" 503))]
  have hrun : d' = d.withErrand state := hrun
  cases hcourse with
  | unchanged hperm => exact absurd hperm (by decide)
  | waiting hperm hmore => cases hmore
  | granted hperm hmore hanswer =>
      cases hmore
      cases hanswer
  | refused hperm hmore hanswer =>
      cases hmore
      cases hanswer
      exact ⟨by rw [hrun]; rfl, by rw [hrun]; rfl, by decide +kernel⟩

end

end Larder.Teams
