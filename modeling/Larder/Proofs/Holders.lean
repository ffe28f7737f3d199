import Larder.Proofs.Deletions

/-!
# The teams that hold a permission

The alias for the teams with a permission stands for the ids that the cached teams carry, not for the
keys they are cached under. A consumer that reads or deletes what the alias stands for goes by keys. So
all rests on the two being the same, and whatever writes a team must see to it: a load, whose answer may
hold any teams at all, an operation, whose answer may describe another team than it was asked to change,
and a change in place.

The first part says of any shelf whose values carry their keys what comes of a lookup by carried keys.
The second shows that a cache into which nothing else is written stays such a shelf, and the third that
the teams of a client are one.
-/

namespace Larder

variable {κ ν : Type} [EntryKey κ]

/-! ## Values that carry their keys -/

namespace Shelf

/-- Every value carries the key that it stands under. -/
def Labelled (label : ν → κ) (s : Shelf κ ν) : Prop := ∀ k v, s.get? k = some v → label v = k

theorem mem_entries {s : Shelf κ ν} {k : κ} {v : ν} : (k, v) ∈ s.entries ↔ s.get? k = some v :=
  Table.mem_entries (t := ⟨s.entries⟩) s.ascending.nodup

section

variable {label : ν → κ} {s : Shelf κ ν}

theorem Labelled.of_mem (h : s.Labelled label) {e : κ × ν} (he : e ∈ s.entries) : label e.2 = e.1 :=
  h e.1 e.2 (mem_entries.1 he)

variable (q : ν → Bool)

/-- The keys that some of the values carry are those of their entries. -/
theorem Labelled.map_filter (h : s.Labelled label) :
    (s.values.filter q).map label = (s.entries.filter fun e => q e.2).map Prod.fst := by
  have hvalues : s.values.filter q = (s.entries.filter fun e => q e.2).map Prod.snd := List.filter_map
  rw [hvalues, List.map_map]
  exact List.map_congr_left fun e he => h.of_mem (List.mem_of_mem_filter he)

theorem Labelled.mem_map_filter (h : s.Labelled label) {k : κ} :
    k ∈ (s.values.filter q).map label ↔ ∃ v, s.get? k = some v ∧ q v = true := by
  rw [h.map_filter, List.mem_map]
  constructor
  · rintro ⟨⟨_, v⟩, he, rfl⟩
    obtain ⟨hmem, hv⟩ := List.mem_filter.1 he
    exact ⟨v, mem_entries.1 hmem, hv⟩
  · rintro ⟨v, hget, hv⟩
    exact ⟨(k, v), List.mem_filter.2 ⟨mem_entries.2 hget, hv⟩, rfl⟩

/-- They ascend, so none is listed twice. -/
theorem Labelled.ascending_map_filter (h : s.Labelled label) :
    Ascending ((s.values.filter q).map label) := by
  rw [h.map_filter]
  exact List.Pairwise.sublist (List.filter_sublist.map Prod.fst) s.ascending

/-- Looking them up gives these values back. -/
theorem Labelled.filterMap_get? (h : s.Labelled label) :
    ((s.values.filter q).map label).filterMap s.get? = s.values.filter q := by
  rw [List.filterMap_map]
  have hfound : ∀ v ∈ s.values.filter q, (s.get? ∘ label) v = some v := by
    intro v hv
    obtain ⟨k, hk⟩ := mem_values.1 (List.mem_of_mem_filter hv)
    show s.get? (label v) = some v
    rw [h k v hk, hk]
  rw [List.filterMap_congr hfound, List.filterMap_some]

/-- Leaving out the entries under these keys leaves out the entries of these values. -/
theorem Labelled.filter_not_mem (h : s.Labelled label) :
    (s.entries.filter fun e => ¬ e.1 ∈ (s.values.filter q).map label)
      = s.entries.filter fun e => ¬ q e.2 = true := by
  refine List.filter_congr fun e he => ?_
  have hget : s.get? e.1 = some e.2 := mem_entries.1 he
  rw [decide_eq_decide, not_iff_not, h.mem_map_filter, hget]
  simp

end

end Shelf

/-! ## Caches that hold such values only -/

namespace Cache

theorem entries_removeAll (ks : List κ) (seq : Nat) (c : Cache κ ν) :
    (c.removeAll ks seq).data.entries = c.data.entries.filter fun e => ¬ e.1 ∈ ks :=
  Shelf.entries_foldl_erase Cache.data (fun _ _ => rfl) ks c

/-- Where no key is asked for twice, the keys that are removed are those that had a value. -/
theorem removeEach_snd {ks : List κ} (hks : ks.Nodup) (seq : Nat) (c : Cache κ ν) :
    (removeEach seq ks c).2 = ks.filter c.data.contains := by
  induction ks generalizing c with
  | nil => rfl
  | cons k ks ih =>
      obtain ⟨hk, hks⟩ := List.nodup_cons.1 hks
      -- the keys behind `k` are others, so its removal does not decide whether they have a value
      have hrest : ks.filter (c.remove k seq).data.contains = ks.filter c.data.contains := by
        refine List.filter_congr fun j hj => ?_
        have hne : ¬ k = j := fun heq => hk (heq ▸ hj)
        show ((c.data.erase k).get? j).isSome = _
        rw [Shelf.get?_erase, if_neg hne]
        rfl
      show (if c.data.contains k = true then k :: (removeEach seq ks (c.remove k seq)).2
        else (removeEach seq ks (c.remove k seq)).2) = _
      rw [ih hks, hrest, List.filter_cons]

theorem entries_delete (c : Cache κ ν) (key : Key κ) : (c.delete key).cache.data.entries
    = c.data.entries.filter fun e => ¬ e.1 ∈ c.resolve key := by
  have hdata : (c.delete key).cache.data
      = (c.draw.removeAll (c.resolve key) (c.ledger.seq + 1)).data := by
    rw [← removeEach_fst]
    rfl
  rw [hdata]
  exact entries_removeAll _ _ c.draw

end Cache

namespace Busy

/-- What the step writes carries its key, and what it changes in place keeps it. -/
def Labels (label : ν → κ) : Op κ ν → Prop
  | .setMany _ entries => ∀ e ∈ entries, label e.2 = e.1
  | .replace _ entries => ∀ e ∈ entries, label e.2 = e.1
  | .commit _ _ (.ok entries) => ∀ e ∈ entries, label e.2 = e.1
  | .update _ f => ∀ v, label (f v) = label v
  | _ => True

/-- **Values that carry their keys do so after a step** that writes no others. -/
theorem labelled_step {b : Busy κ ν} {label : ν → κ} (hp : b.policy.Adopts label) {op : Op κ ν}
    (hop : Labels label op) (h : b.cache.data.Labelled label) : (b.step op).cache.data.Labelled label := by
  intro k
  -- by what a step can do to the value of one key; a merge takes the key that the new value carries
  refine stock_step (I := fun s => ∀ v, s.value = some v → label v = k) (fun hmove hs => ?_) (h k)
  cases hmove with
  | removes loading =>
      intro v hv
      cases hv
  | writes hset hmem hm =>
      intro v hv
      obtain rfl := Option.some.inj hv
      rw [hp _ _ _ hm]
      rcases hset with rfl | rfl <;> exact hop _ hmem
  | changes hupdate hv =>
      intro w hw
      obtain rfl := Option.some.inj hw
      subst hupdate
      exact (hop _).trans (hs _ hv)
  | brings hbrings hmem hm =>
      intro v hv
      obtain rfl := Option.some.inj hv
      rw [hp _ _ _ hm]
      obtain ⟨rfl, _⟩ := hbrings
      exact hop _ hmem
  | _ => exact hs

end Busy

/-! ## Teams -/

namespace Teams

theorem adopts_teamId : policy.Adopts Team.teamId := by
  intro previous next merged hm
  obtain rfl : Team.merge previous next = merged := Option.some.inj hm
  cases previous <;> rfl

namespace Desk

/-- A move writes teams under their own ids only, whatever the service answers. -/
theorem Does.labels {d : Desk} {m : Move} {op : Op String Team} (h : d.Does m op) :
    Busy.Labels Team.teamId op := by
  cases h with
  | commits seq now replies =>
      cases hjoined : joined replies with
      | error cause => trivial
      | ok entries => exact teamId_of_joined hjoined
  | creates now hstage hreply =>
      intro e he
      obtain rfl := List.mem_singleton.1 he
      rfl
  | updates now hstage hreply =>
      intro e he
      obtain rfl := List.mem_singleton.1 he
      rfl
  | grants now hstage hreply => exact fun _ => rfl
  | cleans id => exact fun _ => rfl
  | _ => trivial

theorem labelled_step {d : Desk} (hp : d.resource.policy = Teams.policy)
    (h : d.resource.cache.data.Labelled Team.teamId) (m : Move) :
    (d.step m).resource.cache.data.Labelled Team.teamId := by
  have hkeep : ∀ (b : Busy String Team) (op : Op String Team), d.Does m op →
      b.policy = Teams.policy ∧ b.cache.data.Labelled Team.teamId →
      (b.step op).policy = Teams.policy ∧ (b.step op).cache.data.Labelled Team.teamId := by
    rintro b op hdoes ⟨hpolicy, hlabelled⟩
    exact ⟨(b.policy_step op).trans hpolicy,
      Busy.labelled_step (hpolicy ▸ adopts_teamId) hdoes.labels hlabelled⟩
  exact ((step_does hp m).keeps hkeep ⟨hp, h⟩).2

/-- **Every cached team stands under its own id**, after any moves. -/
theorem labelled_run {d : Desk} (hp : d.resource.policy = Teams.policy)
    (h : d.resource.cache.data.Labelled Team.teamId) (moves : List Move) :
    (d.run moves).resource.cache.data.Labelled Team.teamId := by
  induction moves generalizing d with
  | nil => exact h
  | cons m moves ih => exact ih (policy_step hp m) (labelled_step hp h m)

/-- What the operation that deletes what a key stands for does if all its requests succeed. -/
theorem run_delete_all (d : Desk) (key : Key String) (force : Bool) (arrived : String → Instant × Json) :
    let ids := d.resource.cache.resolve key
    let answers := ids.map fun id => ((arrived id).1, .ok (arrived id).2)
    let d' := d.run (d.alone (.delete key force) answers)
    d'.errands = d.errands ++ [.finished (.ok (.ids ids))]
      ∧ d'.resource.cache.data.entries
        = d.resource.cache.data.entries.filter fun e => ¬ e.1 ∈ ids := by
  intro ids answers d'
  -- no answer is a failure, so the deletion gets to its end
  have hall : deletedBy ids answers = ids := by
    rw [deletedBy_eq_self_iff]
    refine ⟨Nat.le_of_eq (List.length_map _).symm, fun a ha => ?_⟩
    obtain ⟨id, _, rfl⟩ := List.mem_map.1 (List.mem_of_mem_take ha)
    rfl
  have hrun : d' = d.withErrand (proceed (d.resource, deleteNext [] force ids) answers) :=
    d.run_alone (.delete key force) answers
  rw [hrun, errands_withErrand_iff, proceed_deleteNext_ok_iff]
  refine ⟨⟨rfl, hall⟩, ?_⟩
  show (proceed (d.resource, deleteNext [] force ids) answers).1.cache.data.entries = _
  rw [proceed_deleteNext_fst, hall, entries_deleteEach]

/--
**The alias for the teams with a permission stands for these teams exactly.**

Teams are loaded, created, changed, deleted, marked, evicted and cleared in any order, with any keys and
any answers of the service. Then every cached team stands under its own id. So for each permission, the
alias stands for the ids of the cached teams that hold it, in ascending order and none twice; a consumer
of the alias reads the cached teams that hold the permission; and to delete the alias, in the cache or by
an operation whose requests all succeed, removes these teams and no other.
-/
theorem permission_alias_exact (moves : List Move) :
    let d := ({} : Desk).run moves
    let c := d.resource.cache
    (∀ id t, c.data.get? id = some t → t.teamId = id)
      ∧ ∀ p, let ids := c.resolve (withPermission p)
        let others := c.data.entries.filter fun e => ¬ p ∈ e.2.permissions
        (∀ id, id ∈ ids ↔ ∃ t, c.data.get? id = some t ∧ p ∈ t.permissions)
          ∧ Ascending ids ∧ ids.Nodup
          ∧ c.getMany (withPermission p) = (c.data.values.filter fun t => p ∈ t.permissions)
          ∧ (d.resource.delete (withPermission p)).2 = ids
          ∧ (d.resource.delete (withPermission p)).1.cache.data.entries = others
          ∧ ∀ force (arrived : String → Instant × Json),
            let answers := ids.map fun id => ((arrived id).1, .ok (arrived id).2)
            let d' := d.run (d.alone (.delete (withPermission p) force) answers)
            d'.errands = d.errands ++ [.finished (.ok (.ids ids))]
              ∧ d'.resource.cache.data.entries = others := by
  intro d c
  have hlabelled : c.data.Labelled Team.teamId := labelled_run rfl (fun _ _ h => by cases h) moves
  refine ⟨hlabelled, fun p => ?_⟩
  intro ids others
  -- the resolver goes over the teams, so the ids are first those that some of the teams carry
  let q : Team → Bool := fun t => p ∈ t.permissions
  have hids : ids = (c.data.values.filter q).map Team.teamId := by
    have hresolve : ids = (c.data.values.filter fun t => t.permissions.contains p).map Team.teamId :=
      Cache.resolve_byAlias (a := ⟨withPermissionName, some p⟩) (Desk.reached_run moves).sane.permitted
    rw [hresolve]
    exact congrArg (List.map Team.teamId) (List.filter_congr fun t _ => List.contains_eq_mem p _)
  have hothers : (c.data.entries.filter fun e => ¬ e.1 ∈ ids) = others := by
    rw [hids, hlabelled.filter_not_mem]
    exact List.filter_congr fun e _ => by simp [q]
  have hasc : Ascending ids := hids ▸ hlabelled.ascending_map_filter q
  have hmem : ∀ id, id ∈ ids ↔ ∃ t, c.data.get? id = some t ∧ p ∈ t.permissions := by
    intro id
    rw [hids, hlabelled.mem_map_filter]
    simp [q]
  refine ⟨hmem, hasc, hasc.nodup, ?_, ?_, ?_, fun force arrived => ?_⟩
  · show ids.filterMap c.data.get? = _
    rw [hids]
    exact hlabelled.filterMap_get? q
  · show (Cache.removeEach _ ids c.draw).2 = ids
    rw [Cache.removeEach_snd hasc.nodup]
    refine List.filter_eq_self.2 fun id hid => ?_
    obtain ⟨t, ht, _⟩ := (hmem id).1 hid
    exact Option.isSome_of_eq_some ht
  · exact (c.entries_delete (withPermission p)).trans hothers
  · obtain ⟨hended, hleft⟩ := d.run_delete_all (withPermission p) force arrived
    exact ⟨hended, hleft.trans hothers⟩

end Desk

end Teams

end Larder
