import Larder.Proofs.Eviction
import Larder.Proofs.Mutations
import Larder.Proofs.Provenance

/-!
# Setting the permissions of a team

The service answers with the permissions that it has granted. A cached team gets them in place, and that
shields it: no load that started before the answer can undo them. A team that is not cached is loaded,
and nothing shields it before that load comes back with it. Should the load come back without the team,
or be an older one that was joined, an older answer can bring the team, with the permissions that it had
before they were set.

`permissions_come_from` traces the permissions of a team back to the answer or to the load that has
brought them, and says which loads these can be.
-/

namespace Larder

/-! ## Joining a load -/

/-- A load of one key that can be joined is under way, and does not pass the key over. -/
theorem Busy.exists_of_joinable? {κ ν : Type} [EntryKey κ] {b : Busy κ ν} (hb : Reachable b) {k : κ}
    {inc : Includes} {n : Nat} (h : b.ledger.joinable? ⟨.single k, inc⟩ = some n) :
    ∃ load ∈ b.pending, load.seq = n ∧ b.ledger.isSuperseded k n = false := by
  obtain ⟨load, hload, _, rfl, hvalid⟩ := pending_of_joinable? hb h
  refine ⟨load, hload, rfl, Bool.eq_false_iff.2 fun hs => ?_⟩
  have hi := Ledger.isInvalidated_of_isSuperseded hs
  rw [hvalid _ List.mem_cons_self] at hi
  cases hi

/-- A load is joined only if it can be, and nothing changes. -/
theorem Busy.start_of_joined {κ ν : Type} [EntryKey κ] {b : Busy κ ν} {key : Key κ} {inc : Includes}
    {force : Bool} {n : Nat}
    (h : (b.cache.start b.name b.policy key inc force).result = .joined n) :
    b.ledger.joinable? ⟨key, inc⟩ = some n ∧ b.step (.start key inc force) = b := by
  have hjoin : b.ledger.joinable? ⟨key, inc⟩ = some n := by
    unfold Cache.start at h
    split at h
    · cases h
    · split at h
      · cases h
      · cases hj : b.ledger.joinable? ⟨key, inc⟩ with
        | none => simp only [hj] at h; cases h
        | some m => simp only [hj] at h; cases h; rfl
  have hcache : (b.cache.start b.name b.policy key inc force).cache = b.cache := by
    rcases b.cache.start_cases b.name b.policy key inc force with ⟨hcache, _⟩ | ⟨hnone, _⟩
    · exact hcache
    · cases hnone.symm.trans hjoin
  refine ⟨hjoin, ?_⟩
  rw [step_start, hcache, h]

/-- A load that is started has a new number. -/
theorem Busy.lt_of_begun {κ ν : Type} [EntryKey κ] {b : Busy κ ν} {key : Key κ} {inc : Includes}
    {force : Bool} {load : PendingLoad κ}
    (h : (b.cache.start b.name b.policy key inc force).result = .begun load) :
    b.ledger.seq < load.seq := by
  rcases b.cache.start_cases b.name b.policy key inc force with ⟨_, hnone⟩ | ⟨_, hstart⟩
  · exact absurd h (hnone load)
  · rw [hstart] at h
    obtain rfl : b.cache.nextLoad key inc = load := Started.begun.inj h
    exact Nat.lt_succ_self _

namespace Teams

/-- A merged team has the permissions of the new one. -/
theorem adopts_permissions : policy.Adopts Team.permissions := by
  intro previous next merged hm
  obtain rfl : Team.merge previous next = merged := Option.some.inj hm
  cases previous <;> rfl

namespace Desk

variable {d : Desk} {i : Nat} {request : Api.Request} {id : String} {reply : Except Api.ServiceError Json}
  {granted : List String}

/-! ## The answer -/

/-- The load has come back with the team in one of the steps. -/
def CameBack (d : Desk) (load : PendingLoad String) (id : String) (ops : List (Op String Team)) : Prop :=
  Busy.Once (fun b op => ∃ now entries, b.Brings load now entries op ∧ id ∈ entries.map Prod.fst)
    d.busy ops

section

variable (hstage : d.errands[i]? = some (.send request (.granting id .nothing)))
  (hreply : Api.decoded "setSubjectPermissions" Api.permissionsAnswer reply = .ok granted)

include hstage hreply

/-- A cached team gets the permissions in place, and the operation ends. -/
theorem step_granted {t : Team} (ht : d.resource.cache.data.get? id = some t) (now : Instant) :
    (d.step (.replied i now reply)).errands[i]? = some (.finished (.ok .done))
      ∧ (d.step (.replied i now reply)).busy
        = d.busy.step (.update id fun t => { t with permissions := granted }) := by
  have hstep : d.step (.replied i now reply) = d.advance i
      ((d.resource.update id fun t => { t with permissions := granted }).1, .finished (.ok .done)) := by
    simp only [step, hstage]
    rw [answer_granting ht now .nothing hreply]
    rfl
  have hi : i < d.errands.length := (List.getElem?_eq_some_iff.1 hstage).1
  rw [hstep]
  refine ⟨List.getElem?_set_self hi, ?_⟩
  show Resource.atWork _ (d.pending ++ []) = _
  rw [List.append_nil]
  rfl

/-- One that is not cached is loaded, and the operation waits for the load. -/
theorem step_granted_missing (hnone : d.resource.cache.data.get? id = none) (now : Instant) :
    (d.step (.replied i now reply)).errands[i]?
        = some (.await (d.resource.start (.single id) .none true).2 .nothing)
      ∧ (d.step (.replied i now reply)).busy = d.busy.step (.start (.single id) .none true) := by
  -- the change in place finds nothing to change
  have hupdate : d.resource.update id (fun t => { t with permissions := granted })
      = (d.resource, false) := by
    unfold Resource.update Resource.apply Cache.update
    rw [hnone]
    rfl
  have hstep : d.step (.replied i now reply) = d.advance i
      ((d.resource.start (.single id) .none true).1,
        .await (d.resource.start (.single id) .none true).2 .nothing) := by
    simp only [step, hstage, answer, hreply, hupdate]
  have hi : i < d.errands.length := (List.getElem?_eq_some_iff.1 hstage).1
  rw [hstep]
  exact ⟨List.getElem?_set_self hi, Resource.atWork_start d.resource d.pending (.single id) .none true⟩

/-- The change in place shields a cached team from all loads that are under way. -/
theorem shielded_granted (hd : Reached d.busy) {t : Team}
    (ht : d.resource.cache.data.get? id = some t) (now : Instant) :
    (d.step (.replied i now reply)).busy.Shielded id d.resource.cache.ledger.seq := by
  rw [(step_granted hstage hreply ht now).2]
  exact Busy.shielded_of_touches (Busy.sound_reachable hd.reachable) (Nat.le_refl _)
    fun _ _ => ⟨rfl, Option.isSome_of_eq_some ht⟩

/-- If the load of a missing team is one that was under way already, it brings the team with the
permissions that it has. -/
theorem joined_granted_missing (hd : Reached d.busy)
    (hnone : d.resource.cache.data.get? id = none) (now : Instant) {seq : Nat}
    (hjoined : (d.resource.start (.single id) .none true).2 = .joined seq) :
    ∃ load ∈ d.pending, load.seq = seq ∧ ∀ later entries value,
      (valuesOf id entries).getLast? = some value →
        (d.step (.replied i now reply)).busy.Lands load id value
          (.commit load.seq later (.ok entries)) := by
  obtain ⟨hjoin, hsame⟩ := Busy.start_of_joined (b := d.busy) hjoined
  obtain ⟨load, hload, rfl, hs⟩ := Busy.exists_of_joinable? hd.reachable hjoin
  refine ⟨load, hload, rfl, fun later entries value hv => ?_⟩
  -- the team was not written, so nothing has told the load to pass it over
  rw [(step_granted_missing hstage hreply hnone now).2, hsame]
  have hpending : d.busy.pending? load.seq = some load :=
    (Busy.sound_reachable hd.reachable).pending?_eq hload
  exact ⟨later, entries, ⟨rfl, hpending⟩, hs, hv⟩

/-- A load that was begun for a missing team shields it once it has come back with it. -/
theorem shielded_of_cameBack (hd : Reached d.busy)
    (hnone : d.resource.cache.data.get? id = none) (now : Instant) {begun : PendingLoad String}
    (hbegun : (d.step (.replied i now reply)).errands[i]? = some (.await (.begun begun) .nothing))
    {ops : List (Op String Team)} (hcame : (d.step (.replied i now reply)).CameBack begun id ops) :
    ((d.step (.replied i now reply)).busy.run ops).Shielded id d.resource.cache.ledger.seq := by
  have hreached : Reached (d.step (.replied i now reply)).busy := reached_step hd _
  have hwaits := (step_granted_missing hstage hreply hnone now).1
  have hstarted := (Next.await.inj (Option.some.inj (hwaits.symm.trans hbegun))).1
  have hnew : d.resource.cache.ledger.seq < begun.seq := Busy.lt_of_begun (b := d.busy) hstarted
  exact Busy.shielded_of_once_brings (Busy.sound_reachable hreached.reachable)
    (hreached.sane.policy ▸ total_policy) hnew hcame

end

/-! ## Where the permissions come from -/

/--
**Where the permissions of a team come from once they were set.**

The teams are in any state that they can come to when the service answers with the permissions that it
has granted. If the team is cached, it has them at once and the operation ends. If it is not, the
operation waits for a load; one that it has joined was under way already, and brings its own permissions
with the team if it is the next to commit.

After the answer anything may happen, but the team is written by loads only. Then a cached team is the
one that got the permissions in place, or a load has left it so, with the permissions that it has
brought. That load has started after the answer, except in one case: the team was not cached when the
answer arrived, and no load that the operation has begun has come back with it yet.
-/
theorem permissions_come_from (hd : Reached d.busy)
    (hstage : d.errands[i]? = some (.send request (.granting id .nothing))) (now : Instant)
    (hreply : Api.decoded "setSubjectPermissions" Api.permissionsAnswer reply = .ok granted) :
    let held := d.resource.cache.data.get? id
    let d' := d.step (.replied i now reply)
    let waits := fun started => d'.errands[i]? = some (.await started .nothing)
    (∀ t, held = some t → d'.errands[i]? = some (.finished (.ok .done))
        ∧ d'.resource.cache.data.get? id = some { t with permissions := granted })
      ∧ (held = none → ∃ started, waits started ∧ ∀ seq, started = .joined seq →
        ∃ load ∈ d.pending, load.seq = seq ∧ ∀ now entries value,
          (valuesOf id entries).getLast? = some value →
            d'.busy.Lands load id value (.commit load.seq now (.ok entries)))
      ∧ ∀ ops, Busy.Along (fun b op => ¬ b.Meddles id op) d'.busy ops →
        ∀ team, (d'.busy.run ops).cache.data.get? id = some team →
          (∃ t, held = some t ∧ team = { t with permissions := granted })
            ∨ ∃ before op after load value, ops = before ++ op :: after
              ∧ (d'.busy.run before).Lands load id value op
              ∧ ((d'.busy.run before).step op).cache.data.get? id = some team
              ∧ team.permissions = value.permissions
              ∧ (d.resource.cache.ledger.seq < load.seq
                ∨ load ∈ d.pending ∧ held = none
                  ∧ ∀ begun, waits (.begun begun) → ¬ d'.CameBack begun id before) := by
  intro held d' waits
  have hreached : Reached d'.busy := reached_step hd _
  have hpolicy : d'.busy.policy = Teams.policy := hreached.sane.policy
  have htotal : d'.busy.policy.Total := hpolicy ▸ total_policy
  have hadopts : d'.busy.policy.Adopts Team.permissions := hpolicy ▸ adopts_permissions
  cases hheld : held with
  | some t =>
      obtain ⟨hended, hbusy⟩ := step_granted hstage hreply hheld now
      have hplace : d'.resource.cache.data.get? id = some { t with permissions := granted } := by
        show d'.busy.cache.data.get? id = _
        rw [hbusy]
        exact get?_update hheld _
      refine ⟨fun t' ht' => ?_, fun hnone => (by cases hnone), fun ops hops team hteam => ?_⟩
      · cases ht'
        exact ⟨hended, hplace⟩
      · rcases Busy.get?_run htotal hadopts hops hteam with
          hthere | ⟨before, op, after, load, value, hsplit, hlands, hleft, hvalue⟩
        · exact Or.inl ⟨t, rfl, Option.some.inj (hthere.symm.trans hplace)⟩
        · have hshield := Busy.shielded_run (Busy.sound_reachable hreached.reachable)
            (shielded_granted hstage hreply hd hheld now) before
          have hnewer := hshield.lt_of_lands hlands
          exact Or.inr ⟨before, op, after, load, value, hsplit, hlands, hleft, hvalue, Or.inl hnewer⟩
  | none =>
      obtain ⟨hwaits, hbusy⟩ := step_granted_missing hstage hreply hheld now
      have hbusy : d'.busy = d.busy.step (.start (.single id) .none true) := hbusy
      refine ⟨fun _ ht => (by cases ht), fun _ => ⟨_, hwaits, fun seq hjoined => ?_⟩,
        fun ops hops team hteam => Or.inr ?_⟩
      · exact joined_granted_missing hstage hreply hd hheld now hjoined
      · rcases Busy.get?_run htotal hadopts hops hteam with
          hthere | ⟨before, op, after, load, value, hsplit, hlands, hleft, hvalue⟩
        · -- the start of a load caches nothing
          rw [hbusy, Busy.data_start] at hthere
          cases hheld.symm.trans hthere
        · refine ⟨before, op, after, load, value, hsplit, hlands, hleft, hvalue, ?_⟩
          by_cases hlt : d.resource.cache.ledger.seq < load.seq
          · exact Or.inl hlt
          · refine Or.inr ⟨?_, rfl, fun begun hbegun hcame => hlt ?_⟩
            · -- a load that did not start after the answer was under way when it arrived
              have hload := hlands.mem_pending
              rw [hbusy, ← Busy.run_cons] at hload
              exact (Busy.mem_pending_run hload).resolve_right hlt
            · -- once the load that was begun has come back with the team, older ones pass it over
              exact (shielded_of_cameBack hstage hreply hd hheld now hbegun hcame).lt_of_lands hlands

/-- The team is cached, and everything is loaded while its permissions are set. The load brings the
permissions that it had before, and they are not taken. -/
theorem permissions_come_from_answer :
    let old : Team := { teamId := "a", permissions := ["old"] }
    let listed : Except Api.ServiceError Json := .ok (.obj [("teams", .arr [
      .obj [("teamId", .str "a"), ("teamPermissions", .strings ["old"])]])])
    let reply : Except Api.ServiceError Json := .ok (.obj [("permissions", .arr [.obj [("id", .str "new")]])])
    let d₀ := ({} : Desk).run [.load (.single "a") .none false, .loaded 1 ⟨0, 0⟩ [listed],
      .load Key.all .none true]
    let d := d₀.step (.call (.setPermissions "a" ["new"]))
    let d' := d.step (.replied 0 ⟨1, 0⟩ reply)
    let commit : Op String Team := .commit 2 ⟨2, 0⟩ (.ok [("a", old)])
    d'.errands[0]? = some (.finished (.ok .done))
      ∧ (d'.busy.pending? 2).isSome = true
      ∧ ((d'.busy.run [commit]).cache.data.get? "a").map Team.permissions = some ["new"] := by
  intro old listed reply d₀ d d' commit
  have hold : (d₀.resource.cache.data.get? "a").map Team.permissions = some ["old"] := by decide +kernel
  obtain ⟨t, hheld, hpermissions⟩ := Option.map_eq_some_iff.1 hold
  have hother : ¬ ["new"].Perm t.permissions := by
    rw [hpermissions]
    decide
  have hcalled : d = d₀.withErrand
      (d₀.resource, .send (permissionsRequest "a" ["new"]) (.granting "a" .nothing)) :=
    (step_call d₀ _).trans (congrArg d₀.withErrand (grant_of_not_perm hheld hother .nothing))
  have hreached : Reached d.busy := reached_step (reached_run _) _
  have hstage : d.errands[0]? = some (.send (permissionsRequest "a" ["new"]) (.granting "a" .nothing)) := by
    rw [hcalled]
    exact getElem?_withErrand d₀ _
  have hreply : Api.decoded "setSubjectPermissions" Api.permissionsAnswer reply = .ok ["new"] := by rfl
  obtain ⟨hplace, _, hafter⟩ := permissions_come_from hreached hstage ⟨1, 0⟩ hreply
  have hthere : d.resource.cache.data.get? "a" = some t := by
    rw [hcalled]
    exact hheld
  have hcached : ((d'.busy.run [commit]).cache.data.get? "a").isSome = true := by decide +kernel
  obtain ⟨team, hteam⟩ := Option.isSome_iff_exists.1 hcached
  refine ⟨(hplace t hthere).1, by decide +kernel, ?_⟩
  rcases hafter [commit] ⟨id, trivial⟩ team hteam with
    ⟨t, _, rfl⟩ | ⟨before, op, after, load, value, hsplit, hlands, _, _, hload⟩
  · exact congrArg (Option.map Team.permissions) hteam
  · -- no load has started after the answer
    have hnewest : d.resource.cache.ledger.seq = 2 := by decide +kernel
    have honly : op = commit := by
      have hmem : op ∈ before ++ op :: after := List.mem_append_right _ List.mem_cons_self
      rw [← hsplit] at hmem
      exact List.mem_singleton.1 hmem
    rw [honly] at hlands
    have hnumber : load.seq = 2 := hlands.seq_eq
    rcases hload with hlater | ⟨_, hmissing, _⟩
    · omega
    · cases hthere.symm.trans hmissing

/-- The team is not cached, and a load of it is under way while its permissions are set. The operation
joins that load and succeeds, and the team has the permissions from before. -/
theorem old_permissions_after_grant :
    let listed : Except Api.ServiceError Json := .ok (.obj [("teams", .arr [
      .obj [("teamId", .str "a"), ("teamPermissions", .strings ["old"])]])])
    let reply : Except Api.ServiceError Json := .ok (.obj [("permissions", .arr [.obj [("id", .str "new")]])])
    let d := ({} : Desk).run [.load (.single "a") .none false, .call (.setPermissions "a" ["new"]),
      .replied 0 ⟨0, 0⟩ reply]
    let d' := d.run [.loaded 1 ⟨1, 0⟩ [listed], .resumed 0 (.ok ())]
    d.errands = [.await (.joined 1) .nothing]
      ∧ d'.errands = [.finished (.ok .done)]
      ∧ (d'.resource.cache.data.get? "a").map Team.permissions = some ["old"] := by
  intro listed reply d d'
  refine ⟨rfl, ?_, ?_⟩
  · rfl
  · decide +kernel

end Desk

end Teams

end Larder
