import Larder.Proofs.Mutations
import Larder.Proofs.Provenance
import Larder.Proofs.Purging

/-!
# Marks and further parameters

The mark of a new team exists in the cache only, and the further parameters of a team are in an answer
only if they were asked for. Both would be lost if an answer were written as it is. So teams are merged:
what the answer carries counts, and what it lacks stays.

An answer may hold a team several times, a load may be superseded, and a load of everything removes what
its answer lacks. `field_step` says what all of it comes to: after a move that leaves a team cached, such
a field is what the last of the teams brought by the move has in it, and what it was if none has any.
The teams that a move brings are those that the answer it applies holds under the id. For a whole run
nothing else is true, as long as the team stays cached. A load brings no marks, so they come from the
creation of a team alone, and once the marks are cleaned none comes back.
-/

namespace Larder

/-- A merged value has this field from the new value, if that has any, and else keeps what it had. -/
def Policy.Inherits {κ ν α : Type} (p : Policy κ ν) (field : ν → Option α) : Prop :=
  ∀ previous next merged, p.merge previous next = some merged →
    field merged = (field next).or (previous.bind field)

/-- Of several values merged one after the other, the last that has the field decides. -/
theorem Policy.Inherits.combine {κ ν α : Type} {p : Policy κ ν} {field : ν → Option α}
    (hp : p.Inherits field) {values : List ν} {held result : Option ν}
    (h : p.combine held values = some result) :
    result.bind field = (values.filterMap field).getLast?.or (held.bind field) := by
  induction values generalizing held with
  | nil => rw [← Option.some.inj h]; rfl
  | cons v values ih =>
      cases hm : p.merge held v with
      | none =>
          unfold Policy.combine at h
          rw [List.foldlM_cons, hm] at h
          cases h
      | some merged =>
          rw [Policy.combine_cons hm] at h
          rw [ih h, Option.bind_some, hp _ _ _ hm]
          cases hv : field v with
          | none => rw [List.filterMap_cons_none hv, Option.none_or]
          | some x =>
              rw [List.filterMap_cons_some hv, List.getLast?_cons, Option.some_or]
              cases (values.filterMap field).getLast? <;> rfl

theorem eq_bind_of_eq_some {ν α : Type} {o : Option ν} {v : ν} (h : o = some v) (field : ν → Option α) :
    field v = o.bind field := by
  rw [h]
  rfl

/-- What a commit leaves of such a field of a key that is cached afterwards. -/
theorem Cache.field_commit {κ ν α : Type} [EntryKey κ] {p : Policy κ ν} {field : ν → Option α}
    (hp : p.Total) (hfield : p.Inherits field) {c : Cache κ ν} {load : PendingLoad κ}
    {entries : List (κ × ν)} {name : String} {now : Instant} {k : κ} {v : ν}
    (h : (c.commit name p now load (.ok entries)).cache.data.get? k = some v) :
    field v = ((if c.ledger.isSuperseded k load.seq then [] else valuesOf k entries).filterMap
      field).getLast?.or ((c.data.get? k).bind field) := by
  cases hs : c.ledger.isSuperseded k load.seq with
  | true =>
      rw [data_commit_of_superseded hs] at h
      exact eq_bind_of_eq_some h field
  | false =>
      rw [if_neg Bool.false_ne_true]
      by_cases hmem : k ∈ entries.map Prod.fst
      · obtain ⟨reached, rest, hreach⟩ := c.exists_commitReaches p now load entries
        obtain rfl : rest = [] := hreach.complete.1 (complete_commitWrites hp)
        obtain rfl : entries = reached := by rw [hreach.split, List.append_nil]
        have hcombine := hfield.combine (data_commit_of_reached name hreach hs hmem)
        rw [h] at hcombine
        exact hcombine
      · -- the answer lacks the key, and it is cached all the same: nothing was done to it
        have hnil : valuesOf k entries = [] := by
          by_contra hne
          exact hmem (valuesOf_ne_nil.1 hne)
        rw [data_commit_of_not_mem name p now hmem hs] at h
        split at h
        · cases h
        · rw [hnil]
          exact eq_bind_of_eq_some h field

namespace Teams

/-! ## One move -/

/-- A merge keeps this field unless the new team has its own, and permissions do not enter it. -/
structure Lasting {α : Type} (field : Team → Option α) : Prop where
  /-- A merge keeps it. -/
  inherits : policy.Inherits field
  /-- Permissions do not enter it. -/
  spared : ∀ t permissions, field { t with permissions := permissions } = field t

theorem lasting_createdAt : Lasting Team.createdAt where
  inherits previous next merged hm := by
    obtain rfl : Team.merge previous next = merged := Option.some.inj hm
    cases previous
    · exact (Option.or_none).symm
    · rfl
  spared _ _ := rfl

theorem lasting_metaParameters : Lasting Team.metaParameters where
  inherits previous next merged hm := by
    obtain rfl : Team.merge previous next = merged := Option.some.inj hm
    cases previous
    · exact (Option.or_none).symm
    · rfl
  spared _ _ := rfl

/-- The team that an operation writes when the request that it rests at is answered. -/
def Stage.written? (stage : Stage) (now : Instant) (reply : Except Api.ServiceError Json) :
    Option Team :=
  match stage with
  | .creating _ => (Api.decoded "createTeam" Api.teamAnswer reply).toOption.map fun record =>
      { Team.ofRecord record with createdAt := some now }
  | .updating _ => (Api.decoded "updateTeam" Api.teamAnswer reply).toOption.map Team.ofRecord
  | _ => none

section

variable (r : Resource String Team)

theorem data_conclude (sequel : Sequel) : (conclude r sequel).1.cache.data = r.cache.data := by
  cases sequel <;> rfl

theorem data_grant (id : String) (permissions : List String) (sequel : Sequel) :
    (grant r id permissions sequel).1.cache.data = r.cache.data := by
  simp only [grant]
  cases r.cache.data.get? id with
  | none => rfl
  | some t =>
      dsimp only
      split
      · exact data_conclude r sequel
      · rfl

theorem data_answer_granting (now : Instant) (id : String) (sequel : Sequel)
    {reply : Except Api.ServiceError Json} {granted : List String}
    (h : Api.decoded "setSubjectPermissions" Api.permissionsAnswer reply = .ok granted) :
    (answer r now (.granting id sequel) reply).1.cache.data
      = (r.update id fun t => { t with permissions := granted }).1.cache.data := by
  simp only [answer, h]
  rcases r.update id fun t => { t with permissions := granted } with ⟨r', _ | _⟩
  · exact Busy.data_start (r'.atWork []) (.single id) .none true
  · exact data_conclude r' sequel

theorem get?_update_eq (j id : String) (f : Team → Team) :
    (r.update j f).1.cache.data.get? id
      = if j = id then (r.cache.data.get? id).map f else r.cache.data.get? id := by
  show (r.cache.update j f).cache.data.get? id = _
  cases hj : r.cache.data.get? j with
  | none =>
      rw [Cache.update_of_none hj]
      split
      · rename_i heq
        rw [← heq, hj]
        rfl
      · rfl
  | some t =>
      rw [Cache.data_update hj, Shelf.get?_insert]
      split
      · rename_i heq
        rw [← heq, hj]
        rfl
      · rfl

/-- To clean the marks leaves everything else of the teams. -/
theorem get?_cleanNewFlags (id : String) : (cleanNewFlags r).cache.data.get? id
    = (r.cache.data.get? id).map fun t => { t with createdAt := none } := by
  -- the ids are those that were cached at first, and the fold is told by what it does to one of them
  have hfold : ∀ (ids : List String) (r : Resource String Team),
      (ids.foldl (fun r id => (r.update id fun t => { t with createdAt := none }).1) r).cache.data.get? id
        = if id ∈ ids then (r.cache.data.get? id).map fun t => { t with createdAt := none }
          else r.cache.data.get? id := by
    intro ids
    induction ids with
    | nil => exact fun _ => rfl
    | cons j ids ih =>
        intro r
        rw [List.foldl_cons, ih, get?_update_eq]
        by_cases hj : j = id
        · by_cases hmem : id ∈ ids <;> simp [hj, hmem, Function.comp_def]
        · simp [hj, Ne.symm hj]
  unfold cleanNewFlags
  rw [hfold]
  split
  · rfl
  · rename_i hnot
    have hnone : r.cache.data.get? id = none := by
      by_contra hsome
      exact hnot (Shelf.mem_keys.2 (Option.isSome_iff_ne_none.2 hsome))
    rw [hnone]
    rfl

end

section

variable {α : Type} {field : Team → Option α} {r : Resource String Team} {id : String} {t : Team}

/-- A team that is written over what is cached under its id. -/
theorem field_setMany (hp : r.policy = policy) (hfield : Lasting field) {now : Instant} {team : Team}
    (h : (r.setMany now [(team.teamId, team)]).1.cache.data.get? id = some t) :
    field t = (([team].filter fun t => t.teamId = id).filterMap field).getLast?.or
      ((r.cache.data.get? id).bind field) := by
  rw [data_setMany_single hp, Shelf.get?_insert] at h
  by_cases hid : team.teamId = id
  · rw [if_pos hid, hid] at h
    have hmerge : policy.combine (r.cache.data.get? id) [team] = some (some t) := by
      rw [← h]
      rfl
    rw [List.filter_cons_of_pos (by simpa using hid)]
    exact hfield.inherits.combine hmerge
  · rw [if_neg hid] at h
    rw [List.filter_cons_of_neg (by simpa using hid)]
    exact eq_bind_of_eq_some h field

/-- What the answer to the request of an operation leaves of the field. -/
theorem field_answer (hp : r.policy = policy) (hfield : Lasting field) {now : Instant} {stage : Stage}
    {reply : Except Api.ServiceError Json}
    (h : (answer r now stage reply).1.cache.data.get? id = some t) :
    field t = (((stage.written? now reply).toList.filter fun t => t.teamId = id).filterMap
      field).getLast?.or ((r.cache.data.get? id).bind field) := by
  have hsame : r.cache.data.get? id = some t → field t = (r.cache.data.get? id).bind field :=
    fun hget => eq_bind_of_eq_some hget field
  cases stage with
  | creating input =>
      unfold Stage.written?
      cases hreply : Api.decoded "createTeam" Api.teamAnswer reply with
      | error e =>
          simp only [answer, hreply] at h
          exact hsame h
      | ok record =>
          simp only [answer, hreply] at h
          rw [data_grant] at h
          exact field_setMany hp hfield h
  | updating input =>
      unfold Stage.written?
      cases hreply : Api.decoded "updateTeam" Api.teamAnswer reply with
      | error e =>
          simp only [answer, hreply] at h
          exact hsame h
      | ok record =>
          simp only [answer, hreply] at h
          rw [data_grant] at h
          exact field_setMany hp hfield h
  | deleting team left deleted force =>
      cases reply with
      | error e => exact hsame h
      | ok j =>
          have hget : (r.cache.data.erase team).get? id = some t := h
          rw [Shelf.get?_erase] at hget
          split at hget
          · cases hget
          · exact hsame hget
  | listingUsers team =>
      refine hsame ?_
      simp only [answer] at h
      split at h <;> exact h
  | listingAccess =>
      refine hsame ?_
      simp only [answer] at h
      split at h <;> exact h
  | granting team sequel =>
      cases hreply : Api.decoded "setSubjectPermissions" Api.permissionsAnswer reply with
      | error e =>
          simp only [answer, hreply] at h
          exact hsame h
      | ok granted =>
          rw [data_answer_granting r now team sequel hreply, get?_update_eq] at h
          split at h
          · obtain ⟨t', ht', rfl⟩ := Option.map_eq_some_iff.1 h
            rw [hfield.spared]
            exact eq_bind_of_eq_some ht' field
          · exact hsame h

end

namespace Desk

/-- The cached team with an id. -/
abbrev team? (d : Desk) (id : String) : Option Team := d.resource.cache.data.get? id

/-- The teams that a move brings under an id, in order: those that the answer which it applies holds
under the id. An answer to a load that is superseded for the id is not applied to it. -/
def brought (d : Desk) (id : String) : Move → List Team
  | .loaded seq _ replies =>
    match d.pending? seq, joined replies with
    | some load, .ok entries =>
      if d.resource.cache.ledger.isSuperseded id load.seq then [] else valuesOf id entries
    | _, _ => []
  | .replied i now reply =>
    match d.errands[i]? with
    | some (.send _ stage) => (stage.written? now reply).toList.filter fun t => t.teamId = id
    | _ => []
  | _ => []

section

variable {α : Type} {field : Team → Option α} {d : Desk} {id : String} {t : Team}

theorem field_loaded (hp : d.resource.policy = policy) (hfield : Lasting field) {seq : Nat}
    {now : Instant} {replies : List (Except Api.ServiceError Json)}
    (h : (d.step (.loaded seq now replies)).team? id = some t) :
    field t = ((d.brought id (.loaded seq now replies)).filterMap field).getLast?.or
      ((d.team? id).bind field) := by
  have hsame : d.team? id = some t → field t = (d.team? id).bind field :=
    fun hget => eq_bind_of_eq_some hget field
  simp only [step, brought] at h ⊢
  cases hload : d.pending? seq with
  | none =>
      simp only [hload] at h
      exact hsame h
  | some load =>
      simp only [hload] at h
      cases hjoined : joined replies with
      | error cause =>
          rw [hjoined] at h
          exact hsame h
      | ok entries =>
          rw [hjoined] at h
          have hcommit : (d.resource.cache.commit d.resource.name policy now load
              (.ok entries)).cache.data.get? id = some t := hp ▸ h
          exact Cache.field_commit total_policy hfield.inherits hcommit

/-- **After a move, the field of a cached team is what the last of the teams that were brought has in it,
and what it was if none has any.** -/
theorem field_step (hp : d.resource.policy = policy) (hfield : Lasting field) {m : Move}
    (hm : m = .cleanNewFlags → ∀ t, field { t with createdAt := none } = field t)
    (h : (d.step m).team? id = some t) :
    field t = ((d.brought id m).filterMap field).getLast?.or ((d.team? id).bind field) := by
  have hsame : d.team? id = some t → field t = (d.team? id).bind field :=
    fun hget => eq_bind_of_eq_some hget field
  cases m with
  | load key inc force =>
      refine hsame ?_
      rw [← h]
      exact congrArg (fun data => data.get? id) (Busy.data_start d.busy key inc force).symm
  | loaded seq now replies => exact field_loaded hp hfield h
  | call c =>
      have hget : (begin d.resource c).1.cache.data.get? id = some t := h
      rw [begin_fst] at hget
      exact hsame hget
  | replied i now reply =>
      simp only [step, brought] at h ⊢
      cases hnext : d.errands[i]? with
      | none =>
          simp only [hnext] at h ⊢
          exact hsame h
      | some next =>
          simp only [hnext] at h ⊢
          cases next with
          | send request stage => exact field_answer hp hfield h
          | await started sequel => exact hsame h
          | finished result => exact hsame h
  | resumed i result =>
      refine hsame ?_
      simp only [step] at h
      split at h
      · rename_i started sequel hstage
        cases result with
        | error f => exact h
        | ok u =>
            have hget : (conclude d.resource sequel).1.cache.data.get? id = some t := h
            rw [data_conclude] at hget
            exact hget
      · exact h
  | cleanNewFlags =>
      have hget : (Teams.cleanNewFlags d.resource).cache.data.get? id = some t := h
      rw [get?_cleanNewFlags] at hget
      obtain ⟨t', ht', rfl⟩ := Option.map_eq_some_iff.1 hget
      rw [hm rfl]
      exact eq_bind_of_eq_some ht' field
  | purge cutoff =>
      have hget : (d.resource.cache.purge d.resource.uses.tracked cutoff).cache.data.get? id = some t := h
      rw [Cache.data_purge] at hget
      split at hget
      · cases hget
      · exact hsame hget
  | clear => cases h
  | _ => exact hsame h

end

/-! ## Many moves -/

/-- What the teams that a run brings under an id have in a field, in order. -/
def told {α : Type} (field : Team → Option α) (d : Desk) (id : String) : List Move → List α
  | [] => []
  | m :: moves => (d.brought id m).filterMap field ++ (d.step m).told field id moves

/-- The team with an id is cached after every move. -/
def Stays (d : Desk) (id : String) (moves : List Move) : Prop :=
  Along (fun d m => ((d.step m).team? id).isSome = true) d moves

/-- The move ends the creation of a team at some time: the service answers with the team. -/
def Creates (d : Desk) (id : String) (now : Instant) (m : Move) : Prop :=
  ∃ i request input reply record, m = .replied i now reply
    ∧ d.errands[i]? = some (.send request (.creating input))
    ∧ Api.decoded "createTeam" Api.teamAnswer reply = .ok record ∧ record.teamId = id

section

variable {α : Type} {field : Team → Option α} {d : Desk} {id : String} {t : Team} {moves : List Move}

/-- **And after any number of moves, as long as the team stays cached.** -/
theorem field_run (hp : d.resource.policy = policy) (hfield : Lasting field)
    (hclean : .cleanNewFlags ∈ moves → ∀ t, field { t with createdAt := none } = field t)
    (ht : d.team? id = some t) (hstays : d.Stays id moves) :
    ∃ t', (d.run moves).team? id = some t'
      ∧ field t' = (d.told field id moves).getLast?.or (field t) := by
  induction moves generalizing d t with
  | nil => exact ⟨t, ht, rfl⟩
  | cons m moves ih =>
      obtain ⟨t₁, ht₁⟩ := Option.isSome_iff_exists.1 hstays.1
      have hone := field_step hp hfield (fun heq => hclean (heq ▸ List.mem_cons_self)) ht₁
      rw [ht] at hone
      obtain ⟨t', ht', hrest⟩ :=
        ih (policy_step hp m) (fun hmem => hclean (List.mem_cons_of_mem m hmem)) ht₁ hstays.2
      refine ⟨t', ht', ?_⟩
      -- the later moves decide, and where they bring nothing, the first one does
      rw [hrest, hone, told, List.getLast?_append, Option.or_assoc]
      rfl

/-- Of the teams that a move brings, only one that it creates has a mark, which tells the time. -/
theorem createdAt_of_mem_brought {m : Move} (h : t ∈ d.brought id m) {now : Instant}
    (hnow : t.createdAt = some now) : d.Creates id now m := by
  cases m with
  | loaded seq now' replies =>
      simp only [brought] at h
      split at h
      · rename_i load entries hload hjoined
        split at h
        · cases h
        · -- a load brings teams as the service describes them
          obtain ⟨e, he, rfl⟩ := List.mem_map.1 h
          obtain ⟨_, _, _, _, record, _, rfl⟩ := mem_joined hjoined (List.mem_of_mem_filter he)
          cases hnow
      · cases h
  | replied i now' reply =>
      simp only [brought] at h
      split at h
      · rename_i request stage hstage
        obtain ⟨hmem, hid⟩ := List.mem_filter.1 h
        cases stage with
        | creating input =>
            obtain ⟨record, hrecord, rfl⟩ := Option.map_eq_some_iff.1 (Option.mem_toList.1 hmem)
            obtain rfl : now' = now := Option.some.inj hnow
            have hid : record.teamId = id := of_decide_eq_true hid
            refine ⟨i, request, input, reply, record, rfl, hstage, ?_, hid⟩
            cases hreply : Api.decoded "createTeam" Api.teamAnswer reply with
            | error e =>
                rw [hreply] at hrecord
                cases hrecord
            | ok record' =>
                rw [hreply] at hrecord
                rw [Option.some.inj hrecord]
        | updating input =>
            obtain ⟨record, _, rfl⟩ := Option.map_eq_some_iff.1 (Option.mem_toList.1 hmem)
            cases hnow
        | _ => cases hmem
      · cases h
  | _ => cases h

theorem mem_brought_of_creates {m : Move} {now : Instant} (h : d.Creates id now m) :
    ∃ w ∈ d.brought id m, w.createdAt = some now := by
  obtain ⟨i, request, input, reply, record, rfl, hstage, hreply, hid⟩ := h
  refine ⟨{ Team.ofRecord record with createdAt := some now }, ?_, rfl⟩
  simp only [brought, hstage, Stage.written?, hreply]
  exact List.mem_filter.2 ⟨List.mem_singleton.2 rfl, decide_eq_true hid⟩

/-- The marks that a run brings under an id are those of the creations of the team. -/
theorem mem_told_createdAt {now : Instant} :
    now ∈ d.told Team.createdAt id moves ↔ Once (fun d m => d.Creates id now m) d moves := by
  induction moves generalizing d with
  | nil => exact ⟨fun h => absurd h List.not_mem_nil, False.elim⟩
  | cons m moves ih =>
      rw [told, List.mem_append, ih, List.mem_filterMap]
      refine or_congr_left ⟨fun ⟨_, hw, hmark⟩ => createdAt_of_mem_brought hw hmark, fun h => ?_⟩
      exact mem_brought_of_creates h

/-- A mark is from the creation of the team by the move, or was there before. -/
theorem createdAt_step (hp : d.resource.policy = policy) {m : Move} (h : (d.step m).team? id = some t)
    {now : Instant} (hnow : t.createdAt = some now) :
    d.Creates id now m ∨ ∃ t₀, d.team? id = some t₀ ∧ t₀.createdAt = some now := by
  by_cases hm : m = .cleanNewFlags
  · -- `field_step` does not cover the one move that takes marks, but it leaves none
    subst hm
    have hget : (Teams.cleanNewFlags d.resource).cache.data.get? id = some t := h
    rw [get?_cleanNewFlags] at hget
    obtain ⟨_, _, rfl⟩ := Option.map_eq_some_iff.1 hget
    cases hnow
  · have hfield := field_step hp lasting_createdAt (fun heq => absurd heq hm) h
    rw [hnow] at hfield
    rcases Option.or_eq_some_iff.1 hfield.symm with hlast | ⟨_, hbefore⟩
    · obtain ⟨w, hw, hmark⟩ := List.mem_filterMap.1 (List.mem_of_getLast? hlast)
      exact Or.inl (createdAt_of_mem_brought hw hmark)
    · exact Or.inr (Option.bind_eq_some_iff.1 hbefore)

theorem createdAt_run (hp : d.resource.policy = policy) (h : (d.run moves).team? id = some t)
    {now : Instant} (hnow : t.createdAt = some now) :
    Once (fun d m => d.Creates id now m) d moves
      ∨ ∃ t₀, d.team? id = some t₀ ∧ t₀.createdAt = some now := by
  induction moves generalizing d with
  | nil => exact Or.inr ⟨t, h, hnow⟩
  | cons m moves ih =>
      rcases ih (policy_step hp m) h with hlater | ⟨t₀, ht₀, hmark⟩
      · exact Or.inl (Or.inr hlater)
      · exact (createdAt_step hp ht₀ hmark).imp_left Or.inl

theorem isNew_step_cleanNewFlags (h : (d.step .cleanNewFlags).team? id = some t) : t.isNew = false := by
  have hget : (Teams.cleanNewFlags d.resource).cache.data.get? id = some t := h
  rw [get?_cleanNewFlags] at hget
  obtain ⟨_, _, rfl⟩ := Option.map_eq_some_iff.1 hget
  rfl

end

/-- A move changes such a field of a team that stays cached only to what a team that it brings has in it,
and never to nothing. -/
theorem field_changed {α : Type} {field : Team → Option α} {d : Desk} {id : String} {m : Move}
    {t t' : Team} (ht : d.team? id = some t)
    (h : field t' = ((d.brought id m).filterMap field).getLast?.or ((d.team? id).bind field)) :
    ((field t).isSome = true → (field t').isSome = true)
      ∧ (field t' ≠ field t → ∃ w ∈ d.brought id m, field t' = field w ∧ (field w).isSome = true) := by
  rw [ht, Option.bind_some] at h
  cases hlast : ((d.brought id m).filterMap field).getLast? with
  | none =>
      rw [hlast, Option.none_or] at h
      rw [h]
      exact ⟨fun hsome => hsome, fun hne => absurd rfl hne⟩
  | some x =>
      rw [hlast, Option.some_or] at h
      rw [h]
      obtain ⟨w, hw, hx⟩ := List.mem_filterMap.1 (List.mem_of_getLast? hlast)
      exact ⟨fun _ => rfl, fun _ => ⟨w, hw, hx.symm, Option.isSome_of_eq_some hx⟩⟩

/--
**Marks and further parameters of a team are kept as long as it is cached.**

Teams are loaded, created, changed, marked, evicted and deleted in any order, with any keys and any
answers of the service. A move that leaves a team cached does not take its mark, unless the move is to
clean the marks, and changes the mark only if it is the creation of this team. It never takes the further
parameters, and changes them only to those that the answer which it applies holds for the team. So after
a run in which the team stays cached, the mark is the one of the last creation, and the parameters are
the last that an answer held, if there were any, and else they are what they were.

After the marks are cleaned no cached team is new. A load leaves each team the mark that it has, whether
the load was under way when the marks were cleaned or not; whatever team is new later was created since.
-/
theorem marks_and_parameters_survive (before : List Move) (id : String) :
    let d := ({} : Desk).run before
    let cleaned := d.step .cleanNewFlags
    (∀ m t t', d.team? id = some t → (d.step m).team? id = some t' →
        (m ≠ .cleanNewFlags → (t.isNew = true → t'.isNew = true)
          ∧ (t'.createdAt ≠ t.createdAt → ∃ now, d.Creates id now m ∧ t'.createdAt = some now))
        ∧ (t.metaParameters.isSome = true → t'.metaParameters.isSome = true)
        ∧ (t'.metaParameters ≠ t.metaParameters → ∃ w ∈ d.brought id m,
          t'.metaParameters = w.metaParameters ∧ w.metaParameters.isSome = true))
      ∧ (∀ moves t, d.team? id = some t → d.Stays id moves →
        ∃ t', (d.run moves).team? id = some t'
          ∧ (.cleanNewFlags ∉ moves →
            t'.createdAt = (d.told Team.createdAt id moves).getLast?.or t.createdAt)
          ∧ t'.metaParameters = (d.told Team.metaParameters id moves).getLast?.or t.metaParameters)
      ∧ (∀ moves now, now ∈ d.told Team.createdAt id moves
        ↔ Once (fun d m => d.Creates id now m) d moves)
      ∧ (∀ t, cleaned.team? id = some t → t.isNew = false)
      ∧ (∀ later load now replies t, load ∈ d.pending →
        ((cleaned.run later).step (.loaded load.seq now replies)).team? id = some t → t.isNew = true →
        ∃ t₀, (cleaned.run later).team? id = some t₀ ∧ t₀.createdAt = t.createdAt)
      ∧ ∀ later t now, (cleaned.run later).team? id = some t → t.createdAt = some now →
        Once (fun d m => d.Creates id now m) cleaned later := by
  intro d cleaned
  have hp : d.resource.policy = policy := policy_run rfl before
  have hcleaned : cleaned.resource.policy = policy := policy_step hp _
  refine ⟨fun m t t' ht ht' => ⟨fun hm => ?_, ?_⟩, fun moves t ht hstays => ?_,
    fun moves now => mem_told_createdAt, fun t ht => isNew_step_cleanNewFlags ht,
    fun later load now replies t _ ht hnew => ?_, fun later t now ht hnow => ?_⟩
  · have hfield := field_step hp lasting_createdAt (fun heq => absurd heq hm) ht'
    obtain ⟨hkept, hchanged⟩ := field_changed ht hfield
    refine ⟨hkept, fun hne => ?_⟩
    obtain ⟨w, hw, hmark, hsome⟩ := hchanged hne
    obtain ⟨now, hnow⟩ := Option.isSome_iff_exists.1 hsome
    exact ⟨now, createdAt_of_mem_brought hw hnow, hmark.trans hnow⟩
  · exact field_changed ht (field_step hp lasting_metaParameters (fun _ _ => rfl) ht')
  · obtain ⟨t', ht', hparams⟩ :=
      field_run hp lasting_metaParameters (fun _ _ => rfl) ht hstays
    refine ⟨t', ht', fun hclean => ?_, hparams⟩
    obtain ⟨t'', ht'', hmark⟩ :=
      field_run hp lasting_createdAt (fun hmem => absurd hmem hclean) ht hstays
    rw [ht'] at ht''
    rw [Option.some.inj ht'']
    exact hmark
  · obtain ⟨since, hsince⟩ := Option.isSome_iff_exists.1 hnew
    rcases createdAt_step (policy_run hcleaned later) ht hsince with hcreates | ⟨t₀, ht₀, hmark⟩
    · obtain ⟨_, _, _, _, _, hmove, _⟩ := hcreates
      cases hmove
    · exact ⟨t₀, ht₀, hmark.trans hsince.symm⟩
  · -- a mark from before would be on a team that was just cleaned
    refine (createdAt_run hcleaned ht hnow).resolve_right ?_
    rintro ⟨t₀, ht₀, hmark⟩
    have hnot := isNew_step_cleanNewFlags ht₀
    rw [Team.isNew, hmark] at hnot
    cases hnot

/-- A team is created, and a load of everything is under way. It comes back with the team twice, without
a mark and without further parameters. The team keeps both, unless the marks are cleaned before the load
commits; then it is not new any more. -/
theorem marks_and_parameters_survive_load :
    let team (more : List (String × Json)) : Json := .obj (("teamId", .str "a") :: more)
    let created : Except Api.ServiceError Json :=
      .ok (.obj [("team", team [("metaParameters", .obj [])])])
    let listed : Except Api.ServiceError Json := .ok (.obj [("teams", .arr [team [], team []])])
    let d := ({} : Desk).run
      [.call (.create { teamId := "a" }), .replied 0 ⟨5, 0⟩ created, .load Key.all .none true]
    let moves : List Move := [.loaded 2 ⟨6, 0⟩ [listed], .markAllOutdated]
    d.Stays "a" moves
      ∧ (∃ t, (d.run moves).team? "a" = some t ∧ t.createdAt = some ⟨5, 0⟩
        ∧ t.metaParameters.isSome = true)
      ∧ ∃ t, ((d.step .cleanNewFlags).step (.loaded 2 ⟨6, 0⟩ [listed])).team? "a" = some t
        ∧ t.isNew = false := by
  intro team created listed d moves
  obtain ⟨_, hrun, _, hclean, hload, _⟩ := marks_and_parameters_survive
    [.call (.create { teamId := "a" }), .replied 0 ⟨5, 0⟩ created, .load Key.all .none true] "a"
  have hstays : d.Stays "a" moves := ⟨by decide +kernel, by decide +kernel, trivial⟩
  have hthere : (d.team? "a").map (fun t => (t.createdAt, t.metaParameters.isSome))
      = some (some ⟨5, 0⟩, true) := by decide +kernel
  have hback : (((d.step .cleanNewFlags).step (.loaded 2 ⟨6, 0⟩ [listed])).team? "a").isSome = true := by
    decide +kernel
  obtain ⟨t, ht, hfields⟩ := Option.map_eq_some_iff.1 hthere
  obtain ⟨hmark, hparams⟩ := Prod.mk.inj hfields
  refine ⟨hstays, ?_, ?_⟩
  · obtain ⟨t', ht', hmark', hparams'⟩ := hrun moves t ht hstays
    have hplain : Move.cleanNewFlags ∉ moves := by
      intro hmem
      rcases List.mem_cons.1 hmem with heq | hmem
      · cases heq
      · cases List.mem_singleton.1 hmem
    have hnone : d.told Team.createdAt "a" moves = [] := by decide +kernel
    have hnone' : (d.told Team.metaParameters "a" moves).length = 0 := by decide +kernel
    refine ⟨t', ht', ?_, ?_⟩
    · rw [hmark' hplain, hnone, hmark]
      rfl
    · rw [hparams', List.length_eq_zero_iff.1 hnone']
      exact hparams
  · obtain ⟨t', ht'⟩ := Option.isSome_iff_exists.1 hback
    refine ⟨t', ht', Bool.eq_false_iff.2 fun hnew => ?_⟩
    -- the mark would have been there when the marks were just cleaned
    have hpending : (⟨⟨Key.all, .none⟩, 2, [.key "a", .named Alias.all]⟩ : PendingLoad String)
        ∈ d.pending := by
      decide +kernel
    obtain ⟨t₀, ht₀, hsame⟩ := hload [] _ ⟨6, 0⟩ [listed] t' hpending ht' hnew
    have hnot := hclean t₀ ht₀
    rw [Team.isNew, hsame] at hnot
    rw [Team.isNew, hnot] at hnew
    cases hnew

end Desk

end Teams

end Larder
