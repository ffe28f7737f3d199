import Larder.Proofs.Desk
import Larder.Proofs.Stock
import Mathlib.Data.List.Forall2

/-!
# Groups of fields that count as loaded

A load may ask for a group of fields that answers else do not carry. The record of an entry then names
the group, and the names add up from load to load; the fields are in the value, and stay there because
a merge keeps what an answer lacks. So the record says what the value has, as long as whatever puts the
name into the record brings the fields too.

A load does that for the entries of its answer. It does not for a key that it was asked for and that
the answer lacks: the key is marked as loaded, with the group, and its value stays what it was. These
answers are the only ones after which a record names a group that the value does not have. The first
part of this file shows it for any cache, the second for the further parameters of teams.
-/

namespace Larder

theorem EntryMeta.mem_includes_afterLoad {m : EntryMeta} {inc : Includes} {now : Instant}
    {name : String} (h : name ∈ (m.afterLoad inc now).includes.names) :
    name ∈ m.includes.names ∨ name ∈ inc.names := by
  unfold afterLoad at h
  dsimp only at h
  split at h
  · exact Includes.mem_union.1 h
  · exact Or.inr h

/-- A merge keeps the fields of a group that either side has. -/
def Policy.Retains {κ ν : Type} (p : Policy κ ν) (has : ν → Prop) : Prop :=
  ∀ previous next merged, p.merge previous next = some merged →
    (has next ∨ ∃ v, previous = some v ∧ has v) → has merged

/-- If the record names the group, the value has its fields. -/
def Stock.Backed {ν : Type} (group : String) (has : ν → Prop) (s : Stock ν) : Prop :=
  group ∈ s.record.includes.names → ∃ v, s.value = some v ∧ has v

/-- Whether a target was loaded is told by its record. -/
theorem Ledger.isLoaded_eq {κ : Type} [DecidableEq κ] (l : Ledger κ) (t : Target κ) (inc : Includes) :
    l.isLoaded t inc = ((l.metaOf t).loaded && inc.coveredBy (l.metaOf t).includes) := by
  unfold isLoaded metaOf
  cases l.meta? t <;> rfl

namespace Cache

variable {κ ν : Type} [EntryKey κ]

theorem isLoaded_single (c : Cache κ ν) (k : κ) (inc : Includes) :
    c.isLoaded (.single k) inc
      = ((c.stock k).record.loaded && inc.coveredBy (c.stock k).record.includes) := by
  show (true && ([k].all fun k => c.ledger.isLoaded (.key k) inc)) = _
  rw [List.all_cons, List.all_nil, Bool.and_true, Bool.true_and, Ledger.isLoaded_eq]
  rfl

/-- A load that was asked for a key and brings nothing for it marks the key as loaded and leaves its
value, unless the key was invalidated since the load started. -/
theorem stock_commit_of_left_out {c : Cache κ ν} {p : Policy κ ν} (hp : p.Total) (name : String)
    (now : Instant) {load : PendingLoad κ} {entries : List (κ × ν)} {k : κ}
    (hk : k ∈ load.signature.key.explicit) (hnot : k ∉ entries.map Prod.fst)
    (hi : c.ledger.isInvalidated (.key k) load.seq = false) :
    ∃ m : EntryMeta, (c.commit name p now load (.ok entries)).cache.stock k
      = ⟨m.afterLoad load.signature.includes now, c.data.get? k⟩ := by
  have hsup : c.ledger.isSuperseded k load.seq = false :=
    Bool.eq_false_iff.2 (mt Ledger.isInvalidated_of_isSuperseded (Bool.eq_false_iff.1 hi))
  have hnamed : ¬ load.signature.key.isAll = true := by
    cases hkey : load.signature.key with
    | single j => exact Bool.false_ne_true
    | list ks => exact Bool.false_ne_true
    | byAlias a =>
        rw [hkey] at hk
        exact absurd hk List.not_mem_nil
  have hvalue : (c.commit name p now load (.ok entries)).cache.data.get? k = c.data.get? k :=
    (data_commit_of_not_mem name p now hnot hsup).trans (if_neg hnamed)
  have hwinv : (c.commitWrites p now load entries).cache.ledger.isInvalidated (.key k) load.seq = false := by
    rw [isInvalidated_commitWrites]
    exact hi
  rcases ledger_commit_ok c name p now load entries with ⟨hcomplete, _⟩ | ⟨_, hl⟩
  · rw [complete_commitWrites hp] at hcomplete
    cases hcomplete
  · refine ⟨(c.commitWrites p now load entries).cache.ledger.metaOf (.key k), ?_⟩
    unfold stock
    rw [hvalue, hl, Ledger.metaOf_settle, metaOf_markAnswered,
      if_pos ⟨Key.key_mem_requested.2 hk, hwinv⟩]

end Cache

namespace Busy

variable {κ ν : Type} [EntryKey κ]

/-! ## Any cache -/

/-- A load that asked for the group brings its fields with every entry. -/
def Delivers (b : Busy κ ν) (group : String) (has : ν → Prop) (op : Op κ ν) : Prop :=
  ∀ load now entries, b.Brings load now entries op → group ∈ load.signature.includes.names →
    ∀ e ∈ entries, has e.2

/-- A load that asked for the group and named the key brings nothing for the key, and marks it. -/
def LeavesOut (b : Busy κ ν) (group : String) (k : κ) (op : Op κ ν) : Prop :=
  ∃ load now entries, b.Brings load now entries op ∧ group ∈ load.signature.includes.names
    ∧ k ∈ load.signature.key.explicit ∧ k ∉ entries.map Prod.fst
    ∧ b.ledger.isInvalidated (.key k) load.seq = false

/-- A change in place does not take the fields away. -/
def Spares (has : ν → Prop) (op : Op κ ν) : Prop :=
  ∀ k f v, op = .update k f → has v → has (f v)

/-- **A record that names the group stays backed**, unless a load leaves the key out. -/
theorem backed_step {b : Busy κ ν} {op : Op κ ν} {k : κ} {group : String} {has : ν → Prop}
    (hp : b.policy.Retains has) (hdeliver : b.Delivers group has op) (hspare : Spares has op)
    (hout : ¬ b.LeavesOut group k op) (h : (b.cache.stock k).Backed group has) :
    ((b.step op).cache.stock k).Backed group has := by
  refine stock_step (fun hmove hs => ?_) h
  intro hgroup
  cases hmove with
  | notes loading failure => exact hs hgroup
  | outdates => exact hs hgroup
  | removes loading => exact absurd hgroup List.not_mem_nil
  | writes hop hv hm => exact ⟨_, rfl, hp _ _ _ hm (Or.inr (hs hgroup))⟩
  | changes hop hv =>
      obtain ⟨v, hvalue, hhas⟩ := hs hgroup
      rw [hv] at hvalue
      obtain rfl := Option.some.inj hvalue
      exact ⟨_, rfl, hspare k _ _ hop hhas⟩
  | brings hop hv hm =>
      refine ⟨_, rfl, hp _ _ _ hm ?_⟩
      dsimp only at hgroup
      split at hgroup
      · exact Or.inr (hs hgroup)
      · rcases EntryMeta.mem_includes_afterLoad hgroup with hold | hnew
        · exact Or.inr (hs hold)
        · exact Or.inl (hdeliver _ _ _ hop hnew _ hv)
  | marks hop hk hnot hi =>
      rcases EntryMeta.mem_includes_afterLoad hgroup with hold | hnew
      · exact hs hold
      · exact absurd ⟨_, _, _, hop, hnew, hk, hnot, hi⟩ hout

/-- A step that commits nothing delivers nothing and leaves nothing out. -/
theorem not_brings {b : Busy κ ν} {op : Op κ ν} (h : ∀ seq now answer, op ≠ .commit seq now answer)
    {load : PendingLoad κ} {now : Instant} {entries : List (κ × ν)} :
    ¬ b.Brings load now entries op :=
  fun hbrings => h _ _ _ hbrings.1

end Busy

namespace Teams

/-! ## The further parameters of teams -/

/-- The team has its further parameters. -/
def HasMeta (t : Team) : Prop := t.metaParameters.isSome = true

theorem retains_policy : policy.Retains HasMeta := by
  intro previous next merged hm hhas
  obtain rfl : Team.merge previous next = merged := Option.some.inj hm
  unfold HasMeta at hhas ⊢
  cases previous with
  | none =>
      rcases hhas with hnext | ⟨v, hv, _⟩
      · exact hnext
      · cases hv
  | some p =>
      show (next.metaParameters.or p.metaParameters).isSome = true
      rw [Option.isSome_or, Bool.or_eq_true]
      rcases hhas with hnext | ⟨v, hv, hold⟩
      · exact Or.inl hnext
      · cases hv
        exact Or.inr hold

/-- The service answers a request for teams with their further parameters, if these are asked for. -/
def Truthful (request : Api.Request) (reply : Except Api.ServiceError Json) : Prop :=
  request.inputs.member? includeMetaParameters = some (.bool true) →
    ∀ records, Api.decoded "getTeamsList" Api.teamsAnswer reply = .ok records →
      ∀ r ∈ records, r.metaParameters.isSome = true

theorem member?_listRequest (inc : Includes) (id : Option String) :
    (listRequest inc id).inputs.member? includeMetaParameters
      = some (.bool (inc.contains includeMetaParameters)) := by
  have hname : compare "teamId" includeMetaParameters = .gt := by decide +kernel
  simp [listRequest, inputs, knownIncludes, Includes.toVariables, Json.ofMembers, Json.placeMember,
    Json.member?, hname]

/-- The requests of a load that asks for the further parameters all ask for them. -/
theorem asks_of_mem_requests {key : Key String} {inc : Includes} {request : Api.Request}
    (h : request ∈ requests key inc) (hinc : includeMetaParameters ∈ inc.names) :
    request.inputs.member? includeMetaParameters = some (.bool true) := by
  have hasked : inc.contains includeMetaParameters = true := by simpa [Includes.contains] using hinc
  cases key with
  | single id =>
      obtain ⟨_, _, rfl⟩ := List.mem_map.1 h
      rw [member?_listRequest, hasked]
  | list ids =>
      obtain ⟨_, _, rfl⟩ := List.mem_map.1 h
      rw [member?_listRequest, hasked]
  | byAlias a =>
      rw [List.mem_singleton.1 h, member?_listRequest, hasked]

theorem forall₂_of_mapM_eq_ok {α β ε : Type} {f : α → Except ε β} {xs : List α} {ys : List β}
    (h : xs.mapM f = .ok ys) : List.Forall₂ (fun x y => f x = .ok y) xs ys := by
  induction xs generalizing ys with
  | nil =>
      obtain rfl := Except.ok.inj h
      exact .nil
  | cons x xs ih =>
      rw [List.mapM_cons] at h
      cases hx : f x with
      | error e =>
          rw [hx] at h
          cases h
      | ok y =>
          cases hxs : xs.mapM f with
          | error e =>
              rw [hx, hxs] at h
              cases h
          | ok ys' =>
              rw [hx, hxs] at h
              obtain rfl := Except.ok.inj h
              exact .cons hx (ih hxs)

theorem exists_left_of_forall₂ {α β : Type} {R : α → β → Prop} {xs : List α} {ys : List β}
    (h : List.Forall₂ R xs ys) {y : β} (hy : y ∈ ys) : ∃ x ∈ xs, R x y := by
  induction h with
  | nil => exact absurd hy List.not_mem_nil
  | cons hxy _ ih =>
      rcases List.mem_cons.1 hy with rfl | hy
      · exact ⟨_, List.mem_cons_self, hxy⟩
      · obtain ⟨x, hx, hR⟩ := ih hy
        exact ⟨x, List.mem_cons_of_mem _ hx, hR⟩

/-- What a load brings stands in one of the replies. -/
theorem mem_joined {replies : List (Except Api.ServiceError Json)} {entries : List (String × Team)}
    (h : joined replies = .ok entries) {e : String × Team} (he : e ∈ entries) :
    ∃ reply ∈ replies, ∃ records, Api.decoded "getTeamsList" Api.teamsAnswer reply = .ok records
      ∧ ∃ r ∈ records, e = (r.teamId, Team.ofRecord r) := by
  unfold joined at h
  cases hlists : replies.mapM Teams.entries with
  | error e =>
      rw [hlists] at h
      cases h
  | ok lists =>
      rw [hlists] at h
      obtain rfl := Except.ok.inj h
      obtain ⟨list, hlist, he⟩ := List.mem_flatten.1 he
      obtain ⟨reply, hreply, hentries⟩ := exists_left_of_forall₂ (forall₂_of_mapM_eq_ok hlists) hlist
      refine ⟨reply, hreply, ?_⟩
      unfold Teams.entries at hentries
      cases hrecords : Api.decoded "getTeamsList" Api.teamsAnswer reply with
      | error e =>
          rw [hrecords] at hentries
          cases hentries
      | ok records =>
          rw [hrecords] at hentries
          obtain rfl := Except.ok.inj hentries
          obtain ⟨r, hr, heq⟩ := List.mem_map.1 he
          exact ⟨records, rfl, r, hr, heq.symm⟩

namespace Desk

/-- The answers to a load are one for each of its requests, and are truthful. Nothing is asked of other
answers. -/
def Honest (d : Desk) : Move → Prop
  | .loaded seq _ replies => ∀ load, d.pending? seq = some load →
      List.Forall₂ Truthful (requests load.signature.key load.signature.includes) replies
  | _ => True

/-- A load that asked for the further parameters of a team by its id is answered without the team, and
marks it. -/
def LeavesOut (d : Desk) (id : String) : Move → Prop
  | .loaded seq _ replies => ∃ load entries, d.pending? seq = some load
      ∧ includeMetaParameters ∈ load.signature.includes.names
      ∧ id ∈ load.signature.key.explicit
      ∧ joined replies = .ok entries ∧ id ∉ entries.map Prod.fst
      ∧ d.resource.cache.ledger.isInvalidated (.key id) load.seq = false
  | _ => False

/-- What an honest service answers to a load delivers the further parameters. -/
theorem delivers_of_honest {d : Desk} {seq : Nat} {now : Instant}
    {replies : List (Except Api.ServiceError Json)} (h : d.Honest (.loaded seq now replies)) :
    d.busy.Delivers includeMetaParameters HasMeta (.commit seq now (joined replies)) := by
  rintro load now' entries ⟨hop, hload⟩ hgroup e he
  injection hop with hseq _ hjoined
  rw [← hseq] at hload
  obtain ⟨reply, hreply, records, hrecords, r, hr, rfl⟩ := mem_joined hjoined he
  obtain ⟨request, hrequest, htruth⟩ := exists_left_of_forall₂ (h load hload) hreply
  exact htruth (asks_of_mem_requests hrequest hgroup) records hrecords r hr

/-- What a move does other than commit a load neither brings nor takes further parameters. -/
theorem Does.plain {d : Desk} {m : Move} {op : Op String Team} (h : d.Does m op)
    (hm : ∀ seq now replies, m ≠ .loaded seq now replies) :
    (∀ seq now answer, op ≠ .commit seq now answer) ∧ Busy.Spares HasMeta op := by
  cases h with
  | commits seq now replies => exact absurd rfl (hm seq now replies)
  | grants now hstage hreply =>
      refine ⟨fun _ _ _ hop => (by cases hop), fun k f v hop hv => ?_⟩
      injection hop with _ hf
      subst hf
      exact hv
  | cleans id =>
      refine ⟨fun _ _ _ hop => (by cases hop), fun k f v hop hv => ?_⟩
      injection hop with _ hf
      subst hf
      exact hv
  | _ => exact ⟨fun _ _ _ hop => (by cases hop), fun _ _ _ hop => (by cases hop)⟩

/-- **One move** of an honest service keeps the record of a team backed, unless a load leaves it out. -/
theorem backed_step {d : Desk} (hp : d.resource.policy = Teams.policy) {m : Move} {id : String}
    (hhonest : d.Honest m) (hout : ¬ d.LeavesOut id m)
    (h : (d.resource.cache.stock id).Backed includeMetaParameters HasMeta) :
    ((d.step m).resource.cache.stock id).Backed includeMetaParameters HasMeta := by
  by_cases hm : ∃ seq now replies, m = .loaded seq now replies
  · obtain ⟨seq, now, replies, rfl⟩ := hm
    have hpolicy : d.busy.policy = Teams.policy := hp
    show ((d.step (.loaded seq now replies)).busy.cache.stock id).Backed _ _
    rw [busy_loaded hp]
    refine Busy.backed_step (hpolicy ▸ retains_policy) (delivers_of_honest hhonest)
      (fun _ _ _ hop => by cases hop) ?_ h
    rintro ⟨load, now', entries, ⟨hop, hload⟩, hgroup, hid, hnot, hi⟩
    injection hop with hseq _ hjoined
    rw [← hseq] at hload
    exact hout ⟨load, entries, hload, hgroup, hid, hjoined, hnot, hi⟩
  · have hplain : ∀ seq now replies, m ≠ .loaded seq now replies :=
      fun seq now replies heq => hm ⟨seq, now, replies, heq⟩
    have hkeep : ∀ (b : Busy String Team) (op : Op String Team), d.Does m op →
        b.policy = Teams.policy ∧ (b.cache.stock id).Backed includeMetaParameters HasMeta →
        (b.step op).policy = Teams.policy
          ∧ ((b.step op).cache.stock id).Backed includeMetaParameters HasMeta := by
      rintro b op hdoes ⟨hpolicy, hbacked⟩
      obtain ⟨hcommit, hspare⟩ := hdoes.plain hplain
      refine ⟨(b.policy_step op).trans hpolicy, Busy.backed_step (hpolicy ▸ retains_policy) ?_ hspare ?_
        hbacked⟩
      · exact fun _ _ _ hbrings => absurd hbrings (Busy.not_brings hcommit)
      · rintro ⟨_, _, _, hbrings, _⟩
        exact Busy.not_brings hcommit hbrings
    exact ((step_does hp m).keeps hkeep ⟨hp, h⟩).2

/-- **And any number of them.** -/
theorem backed_run {d : Desk} (hp : d.resource.policy = Teams.policy) {moves : List Move}
    (hhonest : Along Honest d moves) {id : String}
    (h : (d.resource.cache.stock id).Backed includeMetaParameters HasMeta) :
    ((d.run moves).resource.cache.stock id).Backed includeMetaParameters HasMeta
      ∨ Once (fun d m => d.LeavesOut id m) d moves := by
  induction moves generalizing d with
  | nil => exact Or.inl h
  | cons m moves ih =>
      by_cases hout : d.LeavesOut id m
      · exact Or.inr (Or.inl hout)
      · exact (ih (policy_step hp m) hhonest.2 (backed_step hp hhonest.1 hout h)).imp_right Or.inr

theorem policy_run {d : Desk} (hp : d.resource.policy = Teams.policy) (moves : List Move) :
    (d.run moves).resource.policy = Teams.policy := by
  induction moves generalizing d with
  | nil => exact hp
  | cons m moves ih => exact ih (policy_step hp m)

/-- What a load leaves out counts as loaded with the further parameters, and stays as it was. -/
theorem isLoaded_of_leavesOut {d : Desk} (hp : d.resource.policy = Teams.policy) {id : String} {m : Move}
    (hout : d.LeavesOut id m) :
    (d.step m).resource.cache.isLoaded (.single id) (Includes.ofList [includeMetaParameters]) = true
      ∧ (d.step m).resource.cache.data.get? id = d.resource.cache.data.get? id := by
  cases m with
  | loaded seq now replies =>
      obtain ⟨load, entries, hload, hgroup, hid, hjoined, hnot, hi⟩ := hout
      have htotal : d.resource.policy.Total := hp ▸ total_policy
      obtain ⟨record, hstock⟩ := Cache.stock_commit_of_left_out htotal d.resource.name now hid hnot hi
      have hstep : (d.step (.loaded seq now replies)).resource.cache
          = (d.resource.cache.commit d.resource.name d.resource.policy now load (.ok entries)).cache := by
        simp only [step, hload, hjoined]
        rfl
      rw [hstep, Cache.isLoaded_single, hstock]
      refine ⟨?_, congrArg Stock.value hstock⟩
      rw [Bool.and_eq_true, Includes.coveredBy_iff]
      refine ⟨rfl, fun name hname => ?_⟩
      obtain rfl : name = includeMetaParameters := List.mem_singleton.1 hname
      exact Includes.coveredBy_iff.1 (record.coveredBy_afterLoad _ now) _ hgroup
  | _ => exact absurd hout not_false

/--
**What counts as loaded is there, unless a load has left it out.**

The service answers requests for the further parameters of teams with these. Then a team that counts as
loaded with its further parameters is cached and has them, whatever loads and operations came before
and however they interleaved, with one exception: a load of the team by its id, with the further
parameters, was answered without the team. Such an answer marks the team as loaded with them and leaves
what is cached as it was.
-/
theorem metaParameters_of_isLoaded {moves : List Move} (hhonest : Along Honest {} moves) (id : String) :
    let d := ({} : Desk).run moves
    let asked := Includes.ofList [includeMetaParameters]
    (d.resource.cache.isLoaded (.single id) asked = true →
        (∃ t, d.resource.cache.data.get? id = some t ∧ t.metaParameters.isSome = true)
          ∨ Once (fun d m => d.LeavesOut id m) {} moves)
      ∧ ∀ m, d.LeavesOut id m →
        (d.step m).resource.cache.isLoaded (.single id) asked = true
          ∧ (d.step m).resource.cache.data.get? id = d.resource.cache.data.get? id := by
  intro d asked
  have hp : ({} : Desk).resource.policy = Teams.policy := rfl
  refine ⟨fun hloaded => ?_, fun m hout => isLoaded_of_leavesOut (policy_run hp moves) hout⟩
  have hnew : (({} : Desk).resource.cache.stock id).Backed includeMetaParameters HasMeta :=
    fun hgroup => absurd hgroup List.not_mem_nil
  refine (backed_run hp hhonest hnew).imp_left fun hbacked => ?_
  rw [Cache.isLoaded_single, Bool.and_eq_true, Includes.coveredBy_iff] at hloaded
  have hasked : includeMetaParameters ∈ asked.names := List.mem_singleton.2 rfl
  exact hbacked (hloaded.2 _ hasked)

/-- A truthful reply to the request for one team is an honest answer. -/
theorem honest_single {d : Desk} {seq : Nat} {now : Instant} (id : String) (inc : Includes)
    {reply : Except Api.ServiceError Json}
    (hload : (d.pending? seq).map PendingLoad.signature = some ⟨.single id, inc⟩)
    (h : Truthful (listRequest inc (some id)) reply) : d.Honest (.loaded seq now [reply]) := by
  intro load hpending
  rw [hpending] at hload
  rw [Option.some.inj hload]
  exact .cons h .nil

/-- A request that does not ask for the further parameters may be answered by anything. -/
theorem truthful_of_not_asked (id : Option String) (reply : Except Api.ServiceError Json) :
    Truthful (listRequest .none id) reply := by
  intro hasked
  rw [member?_listRequest] at hasked
  cases hasked

/-- A team is loaded without its further parameters, then with them, and is changed meanwhile by an
operation that does not ask for them. It counts as loaded with them, and has them. -/
theorem metaParameters_of_isLoaded_updated :
    let asked := Includes.ofList [includeMetaParameters]
    let team (more : List (String × Json)) : Json := .obj (("teamId", .str "a") :: more)
    let listed (teams : List Json) : Except Api.ServiceError Json := .ok (.obj [("teams", .arr teams)])
    let moves : List Move := [
      .load (.single "a") .none false,
      .loaded 1 ⟨0, 0⟩ [listed [team []]],
      .call (.update { teamId := "a" }),
      .load (.single "a") asked false,
      .loaded 2 ⟨0, 0⟩ [listed [team [("metaParameters", .obj [])]]],
      .replied 0 ⟨0, 0⟩ (.ok (.obj [("team", team [])]))]
    Along Honest {} moves ∧ (({} : Desk).run moves).resource.cache.isLoaded (.single "a") asked = true
      ∧ ∃ t, (({} : Desk).run moves).resource.cache.data.get? "a" = some t
        ∧ t.metaParameters.isSome = true := by
  intro asked team listed moves
  have hrecords : Api.decoded "getTeamsList" Api.teamsAnswer
      (listed [team [("metaParameters", .obj [])]]) = .ok [⟨"a", none, none, [], some []⟩] := by rfl
  have hhonest : Along Honest {} moves := by
    refine ⟨trivial, ?_, trivial, trivial, ?_, trivial, trivial⟩
    · exact honest_single "a" .none (by decide +kernel) (truthful_of_not_asked _ _)
    · refine honest_single "a" asked (by decide +kernel) fun _ records h r hr => ?_
      rw [hrecords] at h
      obtain rfl := Except.ok.inj h
      rw [List.mem_singleton.1 hr]
      rfl
  have hloaded : (({} : Desk).run moves).resource.cache.isLoaded (.single "a") asked = true := by
    decide +kernel
  have hfound := (metaParameters_of_isLoaded hhonest "a").1 hloaded
  refine ⟨hhonest, hloaded, hfound.resolve_right ?_⟩
  -- the first load does not ask for the parameters, and the second one brings the team
  rintro (hout | hout | hout | hout | hout | hout | hout)
  · exact hout
  · obtain ⟨load, _, hload, hgroup, _⟩ := hout
    have hsig : ((({} : Desk).step (.load (.single "a") .none false)).pending? 1).map
        PendingLoad.signature = some ⟨.single "a", .none⟩ := by decide +kernel
    rw [hload] at hsig
    rw [Option.some.inj hsig] at hgroup
    exact absurd hgroup List.not_mem_nil
  · exact hout
  · exact hout
  · obtain ⟨_, entries, _, _, _, hjoined, hnot, _⟩ := hout
    have hentries : (joined [listed [team [("metaParameters", .obj [])]]]).map
        (fun entries => entries.map Prod.fst) = .ok ["a"] := by rfl
    rw [hjoined] at hentries
    have hids : entries.map Prod.fst = ["a"] := Except.ok.inj hentries
    exact hnot (hids ▸ List.mem_cons_self)
  · exact hout
  · exact hout

/-- A load that asks for the further parameters of a cached team comes back without the team: it counts
as loaded with them and has none. -/
theorem loaded_without_metaParameters :
    let asked := Includes.ofList [includeMetaParameters]
    let listed (teams : List Json) : Except Api.ServiceError Json := .ok (.obj [("teams", .arr teams)])
    let moves : List Move := [
      .load (.single "a") .none false,
      .loaded 1 ⟨0, 0⟩ [listed [.obj [("teamId", .str "a")]]],
      .load (.single "a") asked false,
      .loaded 2 ⟨0, 0⟩ [listed []]]
    let d := ({} : Desk).run moves
    Along Honest {} moves ∧ d.resource.cache.isLoaded (.single "a") asked = true
      ∧ (d.resource.cache.data.get? "a").map (fun t => t.metaParameters.isSome) = some false := by
  intro asked listed moves d
  refine ⟨⟨trivial, ?_, trivial, ?_, trivial⟩, by decide +kernel, by decide +kernel⟩
  · exact honest_single "a" .none (by decide +kernel) (truthful_of_not_asked _ _)
  · refine honest_single "a" asked (by decide +kernel) fun _ records h r hr => ?_
    have hrecords : Api.decoded "getTeamsList" Api.teamsAnswer (listed []) = .ok [] := by rfl
    rw [hrecords] at h
    obtain rfl := Except.ok.inj h
    exact absurd hr List.not_mem_nil

end Desk

end Teams

end Larder
