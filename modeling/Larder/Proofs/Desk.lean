import Larder.Proofs.Entries
import Larder.Proofs.Run
import Larder.Teams.Operation
import Larder.World.Run

/-!
# Teams at work

The teams of a client are a resource on which loads and operations are under way. Loads are answered
by the service, one reply for each of their requests; operations go from stage to stage as their
requests are answered. All of it may interleave. `Desk.step` is one move and `Desk.run` any number.

Underneath there is a cache at work. Every move comes to a few steps of that cache, and `step_does`
says which: what is written comes from an answer of the service, what is changed in place is the
permissions or the mark of a new team. What holds of caches at work thus holds of the teams, and what
is special to teams needs to be checked for these steps only.
-/

namespace Larder

/-- The load that has begun, if one has. -/
def Started.loads {κ : Type} : Started κ → List (PendingLoad κ)
  | .begun load => [load]
  | _ => []

/-- The cache of a resource at work. -/
def Resource.atWork {κ ν : Type} [EntryKey κ] (r : Resource κ ν) (pending : List (PendingLoad κ)) :
    Busy κ ν where
  name := r.name
  policy := r.policy
  cache := r.cache
  pending := pending

namespace Teams

/-- What can happen to teams. -/
inductive Move where
  /-- Somebody asks for a load, or forces one. -/
  | load (key : Key String) (inc : Includes) (force : Bool)
  /-- The requests of the load with a number are answered. -/
  | loaded (seq : Nat) (now : Instant) (replies : List (Except Api.ServiceError Json))
  /-- Somebody calls for an operation. -/
  | call (c : Call)
  /-- The request of an operation is answered. -/
  | replied (i : Nat) (now : Instant) (reply : Except Api.ServiceError Json)
  /-- The load that an operation waits for has ended. -/
  | resumed (i : Nat) (result : LoadResult)
  /-- Drop the marks of new teams. -/
  | cleanNewFlags
  /-- Mark outdated what a key stands for. -/
  | markOutdated (key : Key String)
  /-- Mark everything outdated. -/
  | markAllOutdated
  /-- Evict what nobody uses and what was loaded at or before the cutoff. -/
  | purge (cutoff : Instant)
  /-- Remove everything. -/
  | clear
  /-- Register a use of a key. -/
  | use (key : Key String) (id : UseId)
  /-- Free a use of a key. -/
  | free (key : Key String) (id : UseId)

/-- Teams at work. -/
structure Desk where
  /-- The teams. -/
  resource : Resource String Team := Teams.empty
  /-- The loads that have started and not ended, oldest first. -/
  pending : List (PendingLoad String) := []
  /-- What each operation is to do next, in the order of the calls. -/
  errands : List Next := []

/-- The load that an operation has begun to wait for, if it has just begun. -/
def Next.loads : Next → List (PendingLoad String)
  | .await started _ => started.loads
  | _ => []

/-- The answer to a load, put together from the replies to its requests; one that failed is enough to
fail it. -/
def joined (replies : List (Except Api.ServiceError Json)) :
    Except Cause (List (String × Team)) :=
  match replies.mapM entries with
  | .error e => .error (.service e)
  | .ok lists => .ok lists.flatten

/-- What has become of a request once it is answered. -/
def fetched (reply : Except Api.ServiceError Json) : World.Fetch String Team :=
  match entries reply with
  | .error e => .failed e
  | .ok es => .got es

/-- The entries that a load in a world gathers from its requests, once all are answered, are these. -/
theorem gathered?_fetched (replies : List (Except Api.ServiceError Json)) :
    World.gathered? (replies.map fetched) = (joined replies).toOption := by
  have hlists : ∀ taken : World.Fetch String Team → Option (List (String × Team)),
      (∀ es, taken (.got es) = some es) → (∀ e, taken (.failed e) = none) →
      (replies.map fetched).mapM taken = (replies.mapM entries).toOption := by
    intro taken hgot hfailed
    induction replies with
    | nil => rfl
    | cons reply replies ih =>
        rw [List.map_cons, List.mapM_cons, List.mapM_cons, ih]
        unfold fetched
        cases entries reply with
        | error e =>
            dsimp only
            rw [hfailed]
            rfl
        | ok es =>
            dsimp only
            rw [hgot]
            cases replies.mapM entries <;> rfl
  unfold World.gathered? joined
  rw [hlists _ (fun _ => rfl) fun _ => rfl]
  cases replies.mapM entries <;> rfl

namespace Desk

/-- The load under way with a number. -/
def pending? (d : Desk) (seq : Nat) : Option (PendingLoad String) :=
  d.pending.find? fun load => load.seq = seq

/-- Take over what an operation has come to. -/
def advance (d : Desk) (i : Nat) (result : Resource String Team × Next) : Desk where
  resource := result.1
  pending := d.pending ++ result.2.loads
  errands := d.errands.set i result.2

/-- One move. An answer to what is not under way is none. -/
def step (d : Desk) : Move → Desk
  | .load key inc force =>
    let (r, started) := d.resource.start key inc force
    { d with resource := r, pending := d.pending ++ started.loads }
  | .loaded seq now replies =>
    match d.pending? seq with
    | none => d
    | some load =>
      { d with
        resource := (d.resource.commit now load (joined replies)).1
        pending := d.pending.filter fun l => ¬ l.seq = seq }
  | .call c =>
    let (r, next) := begin d.resource c
    { d with resource := r, errands := d.errands ++ [next] }
  | .replied i now reply =>
    match d.errands[i]? with
    | some (.send _ stage) => d.advance i (answer d.resource now stage reply)
    | _ => d
  | .resumed i result =>
    match d.errands[i]? with
    | some (.await _ sequel) => d.advance i (reloaded d.resource sequel result)
    | _ => d
  | .cleanNewFlags => { d with resource := Teams.cleanNewFlags d.resource }
  | .markOutdated key => { d with resource := d.resource.markOutdated key }
  | .markAllOutdated => { d with resource := d.resource.markAllOutdated }
  | .purge cutoff => { d with resource := (d.resource.purge cutoff).1 }
  | .clear => { d with resource := d.resource.clear }
  | .use key id => { d with resource := d.resource.registerUse key id }
  | .free key id => { d with resource := (d.resource.freeUse key id).1 }

/-- Some moves, one after the other. -/
def run (d : Desk) (moves : List Move) : Desk := moves.foldl step d

@[simp]
theorem run_nil (d : Desk) : d.run [] = d := rfl

@[simp]
theorem run_cons (d : Desk) (m : Move) (moves : List Move) :
    d.run (m :: moves) = (d.step m).run moves := rfl

/-- Every move of a run satisfies `P`, which is told the state before it. -/
def Along (P : Desk → Move → Prop) : Desk → List Move → Prop
  | _, [] => True
  | d, m :: moves => P d m ∧ Along P (d.step m) moves

/-- Some move of a run satisfies `P`, which is told the state before it. -/
def Once (P : Desk → Move → Prop) : Desk → List Move → Prop
  | _, [] => False
  | d, m :: moves => P d m ∨ Once P (d.step m) moves

/-- The cache under the teams. -/
abbrev busy (d : Desk) : Busy String Team := d.resource.atWork d.pending

/-! ## What a move does to the cache -/

/-- The steps of the cache that a move can consist of. -/
inductive Does (d : Desk) : Move → Op String Team → Prop where
  /-- A load is asked for. -/
  | loads (key : Key String) (inc : Includes) (force : Bool) :
      Does d (.load key inc force) (.start key inc force)
  /-- A load is committed. -/
  | commits (seq : Nat) (now : Instant) (replies : List (Except Api.ServiceError Json)) :
      Does d (.loaded seq now replies) (.commit seq now (joined replies))
  /-- A team that was created is written, with its mark. -/
  | creates {i : Nat} {request : Api.Request} {input : TeamInput} {record : Api.TeamRecord}
      (now : Instant) {reply : Except Api.ServiceError Json}
      (hstage : d.errands[i]? = some (.send request (.creating input)))
      (hreply : Api.decoded "createTeam" Api.teamAnswer reply = .ok record) :
      Does d (.replied i now reply)
        (.setMany now [(record.teamId, { Team.ofRecord record with createdAt := some now })])
  /-- A team that was changed is written. -/
  | updates {i : Nat} {request : Api.Request} {input : TeamInput} {record : Api.TeamRecord}
      (now : Instant) {reply : Except Api.ServiceError Json}
      (hstage : d.errands[i]? = some (.send request (.updating input)))
      (hreply : Api.decoded "updateTeam" Api.teamAnswer reply = .ok record) :
      Does d (.replied i now reply) (.setMany now [(record.teamId, Team.ofRecord record)])
  /-- A team that was deleted is removed. -/
  | deletes {i : Nat} {request : Api.Request} {id : String} {left deleted : List String}
      {force : Bool} (now : Instant) (reply : Except Api.ServiceError Json)
      (hstage : d.errands[i]? = some (.send request (.deleting id left deleted force))) :
      Does d (.replied i now reply) (.delete (.single id))
  /-- The permissions of a team are changed in place. -/
  | grants {i : Nat} {request : Api.Request} {id : String} {sequel : Sequel} (now : Instant)
      {reply : Except Api.ServiceError Json} {granted : List String}
      (hstage : d.errands[i]? = some (.send request (.granting id sequel)))
      (hreply : Api.decoded "setSubjectPermissions" Api.permissionsAnswer reply = .ok granted) :
      Does d (.replied i now reply) (.update id fun t => { t with permissions := granted })
  /-- A team that is not cached is loaded after its permissions were set. -/
  | reloads {i : Nat} {request : Api.Request} {id : String} {sequel : Sequel} (now : Instant)
      (reply : Except Api.ServiceError Json)
      (hstage : d.errands[i]? = some (.send request (.granting id sequel))) :
      Does d (.replied i now reply) (.start (.single id) .none true)
  /-- A team that was changed is marked outdated at the end. -/
  | outdates (i : Nat) (now : Instant) (reply : Except Api.ServiceError Json) (id : String) :
      Does d (.replied i now reply) (.markOutdated (.single id))
  /-- The same, at the end of the load that was waited for. -/
  | outdatesLate (i : Nat) (result : LoadResult) (id : String) :
      Does d (.resumed i result) (.markOutdated (.single id))
  /-- The mark of a team is dropped. -/
  | cleans (id : String) : Does d .cleanNewFlags (.update id fun t => { t with createdAt := none })
  /-- A key is marked outdated. -/
  | marksOutdated (key : Key String) : Does d (.markOutdated key) (.markOutdated key)
  /-- Everything is marked outdated. -/
  | marksAllOutdated : Does d .markAllOutdated .markAllOutdated
  /-- What nobody uses is evicted. -/
  | purges (cutoff : Instant) : Does d (.purge cutoff) (.purge d.resource.uses.tracked cutoff)
  /-- Everything is removed. -/
  | clears : Does d .clear .clear

end Desk

end Teams

/-! ## From moves to steps -/

namespace Busy

variable {κ ν : Type} [EntryKey κ]

/-- One state comes to the other by some steps, each of which satisfies `P`. -/
def Comes (P : Op κ ν → Prop) (b b' : Busy κ ν) : Prop :=
  ∃ ops : List (Op κ ν), b' = b.run ops ∧ ∀ op ∈ ops, P op

theorem Comes.refl (P : Op κ ν → Prop) (b : Busy κ ν) : Comes P b b :=
  ⟨[], rfl, fun _ h => absurd h List.not_mem_nil⟩

theorem Comes.head {P : Op κ ν → Prop} {b b' b'' : Busy κ ν} {op : Op κ ν} (h : P op)
    (hb : b.step op = b') (h' : Comes P b' b'') : Comes P b b'' := by
  obtain ⟨ops, rfl, hops⟩ := h'
  refine ⟨op :: ops, by rw [run_cons, hb], fun op' hmem => ?_⟩
  rcases List.mem_cons.1 hmem with rfl | hmem
  · exact h
  · exact hops op' hmem

/-- What all of these steps keep is kept. -/
theorem Comes.keeps {P : Op κ ν → Prop} {I : Busy κ ν → Prop}
    (hstep : ∀ b op, P op → I b → I (b.step op)) {b b' : Busy κ ν} (h : Comes P b b') (hb : I b) :
    I b' := by
  obtain ⟨ops, rfl, hops⟩ := h
  induction ops generalizing b with
  | nil => exact hb
  | cons op ops ih =>
      rw [run_cons]
      exact ih (hstep b op (hops op List.mem_cons_self) hb)
        fun op' hmem => hops op' (List.mem_cons_of_mem op hmem)

end Busy

namespace Resource

variable {κ ν : Type} [EntryKey κ]

theorem atWork_start (r : Resource κ ν) (pending : List (PendingLoad κ)) (key : Key κ)
    (inc : Includes) (force : Bool) :
    (r.start key inc force).1.atWork (pending ++ (r.start key inc force).2.loads)
      = (r.atWork pending).step (.start key inc force) := by
  rw [Busy.step_start]
  cases hresult : (r.cache.start r.name r.policy key inc force).result <;>
    simp [atWork, start, apply, Started.loads, hresult]

/-- A commit in which no merge breaks down. -/
theorem atWork_commit {r : Resource κ ν} (hp : r.policy.Total) {pending : List (PendingLoad κ)}
    {seq : Nat} {load : PendingLoad κ} (hload : (r.atWork pending).pending? seq = some load)
    (now : Instant) (answer : Except Cause (List (κ × ν))) :
    (r.commit now load answer).1.atWork (pending.filter fun l => ¬ l.seq = seq)
      = (r.atWork pending).step (.commit seq now answer) := by
  rw [Busy.step_commit_of_some hload]
  cases hresult : (r.cache.commit r.name r.policy now load answer).result with
  | success => simp [atWork, commit, apply, hresult]
  | failure f => simp [atWork, commit, apply, hresult]
  | brokenOff =>
      cases answer with
      | error cause => cases hresult
      | ok entries =>
          rw [Cache.commit_ok, if_pos (Cache.complete_commitWrites hp)] at hresult
          cases hresult

end Resource

namespace Teams

theorem total_policy : policy.Total := fun _ _ h => by cases h

section

variable {P : Op String Team → Prop} (r : Resource String Team) (pending : List (PendingLoad String))

/-- The end of an operation marks a team outdated or does nothing. -/
theorem comes_conclude (hmark : ∀ id, P (.markOutdated (.single id))) (sequel : Sequel) :
    Busy.Comes P (r.atWork pending)
      ((conclude r sequel).1.atWork (pending ++ (conclude r sequel).2.loads)) := by
  have hnone : (conclude r sequel).2.loads = [] := by cases sequel <;> rfl
  rw [hnone, List.append_nil]
  cases sequel with
  | created id => exact .refl P _
  | updated id => exact .head (hmark id) rfl (.refl P _)
  | nothing => exact .refl P _

theorem comes_grant (hmark : ∀ id, P (.markOutdated (.single id))) (team : String)
    (permissions : List String) (sequel : Sequel) :
    Busy.Comes P (r.atWork pending) ((grant r team permissions sequel).1.atWork
      (pending ++ (grant r team permissions sequel).2.loads)) := by
  have hcases : grant r team permissions sequel = conclude r sequel
      ∨ ∃ request, grant r team permissions sequel = (r, .send request (.granting team sequel)) := by
    simp only [grant]
    cases r.cache.data.get? team with
    | none => exact Or.inr ⟨_, rfl⟩
    | some t =>
        dsimp only
        split
        · exact Or.inl rfl
        · exact Or.inr ⟨_, rfl⟩
  rcases hcases with hdone | ⟨request, hsend⟩
  · rw [hdone]
    exact comes_conclude r pending hmark sequel
  · rw [hsend]
    show Busy.Comes P _ (r.atWork (pending ++ []))
    rw [List.append_nil]
    exact .refl P _

end

/-- The first step of an operation changes nothing. -/
theorem begin_fst (r : Resource String Team) (c : Call) : (begin r c).1 = r := by
  cases c with
  | setPermissions id permissions =>
      simp only [begin, grant]
      cases r.cache.data.get? id with
      | none => rfl
      | some t =>
          dsimp only
          split <;> rfl
  | _ => rfl

namespace Desk

/-- What the answer to the request of an operation does. -/
theorem comes_answer (d : Desk) {i : Nat} {request : Api.Request} {stage : Stage}
    (hstage : d.errands[i]? = some (.send request stage)) (now : Instant)
    (reply : Except Api.ServiceError Json) :
    Busy.Comes (d.Does (.replied i now reply)) d.busy
      ((answer d.resource now stage reply).1.atWork
        (d.pending ++ (answer d.resource now stage reply).2.loads)) := by
  have hmark : ∀ id, d.Does (.replied i now reply) (.markOutdated (.single id)) :=
    fun id => .outdates i now reply id
  have hrest : Busy.Comes (d.Does (.replied i now reply)) d.busy
      (d.resource.atWork (d.pending ++ [])) := by
    rw [List.append_nil]
    exact .refl _ _
  cases stage with
  | creating input =>
      cases hreply : Api.decoded "createTeam" Api.teamAnswer reply with
      | error e =>
          simp only [answer, hreply]
          exact hrest
      | ok record =>
          simp only [answer, hreply]
          exact .head (.creates now hstage hreply) rfl (comes_grant _ d.pending hmark _ _ _)
  | updating input =>
      cases hreply : Api.decoded "updateTeam" Api.teamAnswer reply with
      | error e =>
          simp only [answer, hreply]
          exact hrest
      | ok record =>
          simp only [answer, hreply]
          exact .head (.updates now hstage hreply) rfl (comes_grant _ d.pending hmark _ _ _)
  | deleting id left deleted force =>
      cases reply with
      | error e => exact hrest
      | ok j =>
          have hnone : (deleteNext (deleted ++ [id]) force left).loads = [] := by cases left <;> rfl
          simp only [answer, hnone, List.append_nil]
          exact .head (.deletes now (.ok j) hstage) rfl (.refl _ _)
  | listingUsers id =>
      simp only [answer]
      cases Api.decoded "getTeamGrantedUsers" Api.grantedUsersAnswer reply with
      | error e => exact hrest
      | ok lists => cases lists <;> exact hrest
  | listingAccess =>
      simp only [answer]
      cases Api.decoded "getSubjectConnectionAccess" Api.accessAnswer reply <;> exact hrest
  | granting id sequel =>
      cases hreply : Api.decoded "setSubjectPermissions" Api.permissionsAnswer reply with
      | error e =>
          simp only [answer, hreply]
          exact hrest
      | ok granted =>
          simp only [answer, hreply]
          have hupdate : d.busy.step (.update id fun t => { t with permissions := granted })
            = (d.resource.update id fun t => { t with permissions := granted }).1.atWork d.pending := rfl
          refine .head (.grants now hstage hreply) hupdate ?_
          rcases d.resource.update id fun t => { t with permissions := granted } with ⟨r, _ | _⟩
          · exact .head (.reloads now reply hstage) (Resource.atWork_start r d.pending _ _ _).symm
              (.refl _ _)
          · exact comes_conclude r d.pending hmark sequel

/-- Dropping the marks changes the cached teams one by one. -/
theorem comes_cleanNewFlags (d : Desk) :
    Busy.Comes (d.Does .cleanNewFlags) d.busy ((Teams.cleanNewFlags d.resource).atWork d.pending) := by
  have hfold : ∀ (ids : List String) (r : Resource String Team),
      Busy.Comes (d.Does .cleanNewFlags) (r.atWork d.pending)
        ((ids.foldl (fun r id => (r.update id fun t => { t with createdAt := none }).1) r).atWork
          d.pending) := by
    intro ids
    induction ids with
    | nil => exact fun r => .refl _ _
    | cons id ids ih => exact fun r => .head (.cleans id) rfl (ih _)
  exact hfold d.resource.cache.data.keys d.resource

/-- The answers to a load are committed to the cache. -/
theorem busy_loaded {d : Desk} (hp : d.resource.policy = Teams.policy) (seq : Nat) (now : Instant)
    (replies : List (Except Api.ServiceError Json)) :
    (d.step (.loaded seq now replies)).busy = d.busy.step (.commit seq now (joined replies)) := by
  simp only [step]
  cases hload : d.pending? seq with
  | none =>
      have hpending : d.busy.pending? seq = none := hload
      rw [Busy.step_commit_of_none hpending]
  | some load =>
      have hpending : (d.resource.atWork d.pending).pending? seq = some load := hload
      exact Resource.atWork_commit (hp ▸ total_policy) hpending now _

/-- **Every move comes to steps of the cache that it can consist of.** -/
theorem step_does {d : Desk} (hp : d.resource.policy = Teams.policy) (m : Move) :
    Busy.Comes (d.Does m) d.busy (d.step m).busy := by
  cases m with
  | load key inc force =>
      exact .head (.loads key inc force) (Resource.atWork_start _ _ _ _ _).symm (.refl _ _)
  | loaded seq now replies =>
      exact .head (.commits seq now replies) (busy_loaded hp seq now replies).symm (.refl _ _)
  | call c =>
      show Busy.Comes _ _ ((begin d.resource c).1.atWork d.pending)
      rw [begin_fst]
      exact .refl _ _
  | replied i now reply =>
      simp only [step]
      split
      · rename_i request stage hstage
        exact d.comes_answer hstage now reply
      · exact .refl _ _
  | resumed i result =>
      simp only [step]
      split
      · rename_i started sequel hstage
        cases result with
        | error f =>
            show Busy.Comes _ _ (d.resource.atWork (d.pending ++ []))
            rw [List.append_nil]
            exact .refl _ _
        | ok u => exact comes_conclude d.resource d.pending (fun id => .outdatesLate i (.ok u) id) sequel
      · exact .refl _ _
  | cleanNewFlags => exact d.comes_cleanNewFlags
  | markOutdated key => exact .head (.marksOutdated key) rfl (.refl _ _)
  | markAllOutdated => exact .head .marksAllOutdated rfl (.refl _ _)
  | purge cutoff => exact .head (.purges cutoff) rfl (.refl _ _)
  | clear => exact .head .clears rfl (.refl _ _)
  | use key id => exact .refl _ _
  | free key id => exact .refl _ _

/-- The policy of teams never changes. -/
theorem policy_step {d : Desk} (hp : d.resource.policy = Teams.policy) (m : Move) :
    (d.step m).resource.policy = Teams.policy := by
  obtain ⟨ops, hrun, _⟩ := step_does hp m
  have hsame : (d.step m).busy.policy = d.busy.policy := by rw [hrun, Busy.policy_run]
  exact hsame.trans hp

end Desk

end Teams

end Larder
