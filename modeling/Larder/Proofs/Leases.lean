import Larder.Binding
import Larder.Proofs.Counting
import Mathlib.Data.List.Nodup

/-!
# Leases

A lease is a registered use: a key with the id registered for it. `Uses.Accounts` says that a table of
uses is exactly a list of leases. Registering puts a lease on the list and freeing takes one off it;
freeing what is not on the list changes nothing.

A binding that follows a key has one lease. Letting go of the binding takes it off the list, and of all
that a binding does only following another key touches it.
-/

namespace Larder

namespace Table

variable {κ ν : Type} [DecidableEq κ]

theorem mem_keys {t : Table κ ν} {k : κ} : k ∈ t.keys ↔ (t.get? k).isSome = true := by
  simp [keys, get?, List.find?_isSome]

/-- Where no key is bound twice, every binding of the list is an answer. -/
theorem mem_entries {t : Table κ ν} (h : t.Distinct) {k : κ} {v : ν} :
    (k, v) ∈ t.entries ↔ t.get? k = some v := by
  constructor
  · intro hmem
    obtain ⟨v', hv'⟩ := Option.isSome_iff_exists.1 (mem_keys.1 (List.mem_map_of_mem hmem))
    obtain ⟨e, hfind, hv⟩ := Option.map_eq_some_iff.1 hv'
    -- what is found has the same key, so it is the same binding
    have hkey : e.1 = k := by simpa using List.find?_some hfind
    obtain rfl := List.inj_on_of_nodup_map h (List.mem_of_find?_eq_some hfind) hmem hkey
    rw [hv', ← hv]
  · intro hk
    obtain ⟨⟨k', v'⟩, hfind, rfl⟩ := Option.map_eq_some_iff.1 hk
    obtain rfl : k' = k := by simpa using List.find?_some hfind
    exact List.mem_of_find?_eq_some hfind

theorem mem_values {t : Table κ ν} (h : t.Distinct) {v : ν} :
    v ∈ t.values ↔ ∃ k, t.get? k = some v := by
  constructor
  · intro hv
    obtain ⟨⟨k, v'⟩, hmem, rfl⟩ := List.mem_map.1 hv
    exact ⟨k, (mem_entries h).1 hmem⟩
  · rintro ⟨k, hk⟩
    exact List.mem_map_of_mem ((mem_entries h).2 hk)

/-- Binding a key to what it is bound to changes nothing. -/
theorem set_of_get? {t : Table κ ν} {k : κ} {v : ν} (h : t.get? k = some v) : t.set k v = t := by
  obtain ⟨l⟩ := t
  have hbind : bind k v l = l := by
    induction l with
    | nil => cases h
    | cons e rest ih =>
        unfold bind
        by_cases he : e.1 = k
        · have hfind : some e.2 = some v := by
            rw [← h]
            simp [get?, he]
          rw [if_pos he, ← he, ← Option.some.inj hfind]
        · rw [if_neg he, ih]
          rw [← h]
          simp [get?, he]
  exact congrArg Table.mk hbind

end Table

/-- A registered use: the key and the id. -/
abbrev Lease (κ : Type) := Key κ × UseId

namespace Uses

variable {κ : Type} [DecidableEq κ]

/-! ## What is registered after each operation -/

theorem idsOf_register (u : Uses κ) (key j : Key κ) (id : UseId) :
    (u.register key id).idsOf j = if key = j then u.idsOf j ++ [id] else u.idsOf j := by
  unfold register idsOf
  rw [Table.get?_set]
  by_cases h : key = j
  · subst h
    rw [if_pos rfl, if_pos rfl]
    rfl
  · rw [if_neg h, if_neg h]

/-- Freeing takes the id out; a key that has no other goes with it. -/
theorem get?_free (u : Uses κ) (key j : Key κ) (id : UseId) :
    (u.free key id).table.get? j
      = if key = j then
          match (u.idsOf key).filter fun i => ¬ i = id with
          | [] => none
          | ids => some ids
        else u.table.get? j := by
  unfold free idsOf
  cases hkey : u.table.get? key with
  | none =>
      by_cases hj : key = j
      · subst hj
        rw [if_pos rfl]
        exact hkey
      · rw [if_neg hj]
  | some ids =>
      dsimp only [Option.getD_some]
      cases ids.filter fun i => ¬ i = id with
      | nil => exact Table.get?_erase u.table key j
      | cons i rest => exact Table.get?_set u.table key j (i :: rest)

theorem idsOf_free (u : Uses κ) (key j : Key κ) (id : UseId) :
    (u.free key id).idsOf j
      = if key = j then (u.idsOf j).filter (fun i => ¬ i = id) else u.idsOf j := by
  by_cases hj : key = j
  · subst hj
    rw [if_pos rfl]
    show ((u.free key id).table.get? key).getD [] = _
    rw [get?_free, if_pos rfl]
    cases (u.idsOf key).filter fun i => ¬ i = id with
    | nil => rfl
    | cons i ids => rfl
  · rw [if_neg hj]
    show ((u.free key id).table.get? j).getD [] = _
    rw [get?_free, if_neg hj]
    rfl

/-! ## Tables and lists of leases -/

/-- The table holds exactly the leases of a list, under ids that are all different, and no key without
a lease. -/
structure Accounts (u : Uses κ) (leases : List (Lease κ)) : Prop where
  /-- The ids registered for a key are those of its leases. -/
  ids : ∀ key, (u.idsOf key).Perm ((leases.filter fun l => l.1 = key).map Prod.snd)
  /-- No id is leased twice. -/
  once : (leases.map Prod.snd).Nodup
  /-- No key is kept without an id. -/
  kept : ∀ key, u.table.get? key ≠ some []
  /-- No key stands twice in the table. -/
  distinct : u.table.Distinct

namespace Accounts

variable {u : Uses κ} {leases leases' : List (Lease κ)} {key : Key κ} {id : UseId}

theorem empty : ({} : Uses κ).Accounts [] where
  ids _ := List.Perm.nil
  once := List.nodup_nil
  kept _ h := by cases h
  distinct := List.nodup_nil

theorem perm (h : u.Accounts leases) (hp : leases.Perm leases') : u.Accounts leases' where
  ids key := (h.ids key).trans ((hp.filter _).map Prod.snd)
  once := (hp.map Prod.snd).nodup_iff.1 h.once
  kept := h.kept
  distinct := h.distinct

theorem holds_iff (h : u.Accounts leases) : u.holds key id = true ↔ (key, id) ∈ leases := by
  unfold holds
  rw [List.contains_iff_mem, (h.ids key).mem_iff, List.mem_map]
  constructor
  · rintro ⟨⟨k, i⟩, hfiltered, rfl⟩
    obtain ⟨hmem, hk⟩ := List.mem_filter.1 hfiltered
    obtain rfl : k = key := by simpa using hk
    exact hmem
  · intro hmem
    exact ⟨(key, id), List.mem_filter.2 ⟨hmem, decide_eq_true rfl⟩, rfl⟩

/-- A lease of an id is the only one. -/
theorem lease_unique (h : u.Accounts leases) {j : Key κ} (hj : (j, id) ∈ leases)
    (hkey : (key, id) ∈ leases) : j = key :=
  congrArg Prod.fst (List.inj_on_of_nodup_map h.once hj hkey rfl)

theorem register (h : u.Accounts leases) (hid : id ∉ leases.map Prod.snd) (key : Key κ) :
    (u.register key id).Accounts ((key, id) :: leases) where
  ids j := by
    rw [idsOf_register]
    by_cases hj : key = j
    · rw [if_pos hj, List.filter_cons_of_pos (by simpa using hj), List.map_cons]
      exact (List.perm_append_singleton id _).trans ((h.ids j).cons id)
    · rw [if_neg hj, List.filter_cons_of_neg (by simpa using hj)]
      exact h.ids j
  once := List.nodup_cons.2 ⟨hid, h.once⟩
  kept j := by
    unfold Uses.register
    rw [Table.get?_set]
    split
    · intro heq
      exact List.append_ne_nil_of_right_ne_nil _ (List.cons_ne_nil id []) (Option.some.inj heq)
    · exact h.kept j
  distinct := Table.distinct_set h.distinct key _

theorem free (h : u.Accounts ((key, id) :: leases)) : (u.free key id).Accounts leases where
  ids j := by
    rw [idsOf_free]
    have hids := h.ids j
    by_cases hj : key = j
    · rw [if_pos hj]
      rw [List.filter_cons_of_pos (by simpa using hj), List.map_cons] at hids
      -- the id stands in no other lease, so taking it out takes out one lease
      have hother : ∀ i ∈ (leases.filter fun l => l.1 = j).map Prod.snd, i ≠ id := by
        rintro i hi rfl
        obtain ⟨l, hl, hli⟩ := List.mem_map.1 hi
        refine (List.nodup_cons.1 h.once).1 (List.mem_map.2 ⟨l, (List.mem_filter.1 hl).1, hli⟩)
      refine (hids.filter _).trans ?_
      rw [List.filter_cons_of_neg (by simp), List.filter_eq_self.2]
      intro i hi
      exact decide_eq_true (hother i hi)
    · rw [if_neg hj]
      rw [List.filter_cons_of_neg (by simpa using hj)] at hids
      exact hids
  once := (List.nodup_cons.1 h.once).2
  kept j := by
    rw [get?_free]
    split
    · split
      · exact Option.some_ne_none _ ∘ Eq.symm
      · rename_i hne
        exact fun heq => hne (Option.some.inj heq)
    · exact h.kept j
  distinct := by
    unfold Uses.free
    split
    · exact h.distinct
    · split
      · exact Table.distinct_erase h.distinct key
      · exact Table.distinct_set h.distinct key _

/-- Freeing what is not leased changes nothing: an id that is not there is not taken out, and no key is
without an id for the taking. -/
theorem free_of_not_mem (h : u.Accounts leases) (hl : (key, id) ∉ leases) : u.free key id = u := by
  unfold Uses.free
  cases hkey : u.table.get? key with
  | none => rfl
  | some ids =>
      have hkept : ids ≠ [] := fun hnil => h.kept key (hnil ▸ hkey)
      have hid : id ∉ ids := by
        intro hid
        refine hl (h.holds_iff.1 (List.contains_iff_mem.2 ?_))
        rw [idsOf, hkey]
        exact hid
      have hall : ids.filter (fun i => ¬ i = id) = ids := by
        refine List.filter_eq_self.2 fun i hi => decide_eq_true ?_
        rintro rfl
        exact hid hi
      dsimp only
      rw [hall]
      split
      · exact absurd rfl hkept
      · exact congrArg Uses.mk (Table.set_of_get? hkey)

/-! ## What a table that accounts for some leases answers -/

theorem count_eq (h : u.Accounts leases) (key : Key κ) :
    u.count key = leases.countP fun l => l.1 = key := by
  unfold count
  rw [(h.ids key).length_eq, List.length_map, List.countP_eq_length_filter]

theorem isUsed_iff (h : u.Accounts leases) : u.isUsed key = true ↔ 0 < u.count key := by
  have hkept := h.kept key
  unfold isUsed Table.contains count idsOf
  cases hk : u.table.get? key with
  | none => simp
  | some ids =>
      rw [hk] at hkept
      cases ids with
      | nil => exact absurd rfl hkept
      | cons i ids => simp

theorem hasId_iff (h : u.Accounts leases) : u.hasId id = true ↔ id ∈ leases.map Prod.snd := by
  have hany : u.hasId id = true ↔ ∃ key, u.holds key id = true := by
    unfold hasId holds idsOf
    rw [List.any_eq_true]
    constructor
    · rintro ⟨ids, hids, hid⟩
      obtain ⟨key, hkey⟩ := (Table.mem_values h.distinct).1 hids
      refine ⟨key, ?_⟩
      rw [hkey]
      exact hid
    · rintro ⟨key, hid⟩
      cases hkey : u.table.get? key with
      | none =>
          rw [hkey] at hid
          cases hid
      | some ids =>
          rw [hkey] at hid
          exact ⟨ids, (Table.mem_values h.distinct).2 ⟨key, hkey⟩, hid⟩
  rw [hany, List.mem_map]
  constructor
  · rintro ⟨key, hkey⟩
    exact ⟨(key, id), h.holds_iff.1 hkey, rfl⟩
  · rintro ⟨⟨key, i⟩, hmem, rfl⟩
    exact ⟨key, h.holds_iff.2 hmem⟩

end Accounts

theorem mem_tracked {u : Uses κ} {key : Key κ} : key ∈ u.tracked ↔ u.isUsed key = true :=
  Table.mem_keys

end Uses

namespace Resource

variable {κ ν : Type} [EntryKey κ] {r : Resource κ ν} {leases : List (Lease κ)} {key : Key κ}
  {id : UseId}

/-- What is not leased cannot be freed. -/
theorem freeUse_of_not_mem (h : r.uses.Accounts leases) (hl : (key, id) ∉ leases) :
    r.freeUse key id = (r, false) := by
  have hholds : r.uses.holds key id = false := by
    rw [← Bool.not_eq_true, h.holds_iff]
    exact hl
  unfold freeUse
  rw [h.free_of_not_mem hl, hholds]

end Resource

/-! ## Bindings -/

namespace Binding

variable {κ ν : Type} [EntryKey κ]

/-- The use that a binding has registered. -/
def lease (b : Binding κ) : Option (Lease κ) :=
  match b.key, b.use with
  | some key, some id => some (key, id)
  | _, _ => none

/-- A binding that follows a key has a use of it, and one that follows none has none. -/
def Bound (b : Binding κ) : Prop := b.use.isSome = b.key.isSome

/-- The lease of a binding is a use of the key it follows. -/
theorem Bound.lease_of {b : Binding κ} (h : b.Bound) (key : Key κ) :
    (b.lease.map fun l => decide (l.1 = key)).getD false = decide (b.key = some key) := by
  unfold Bound at h
  unfold lease
  cases hkey : b.key with
  | none => simp
  | some k =>
      cases huse : b.use with
      | none =>
          rw [hkey, huse] at h
          cases h
      | some id => simp

variable {b : Binding κ} {r : Resource κ ν} {rest : List (Lease κ)}

theorem uses_release (b : Binding κ) (r : Resource κ ν) :
    (b.release r).2.uses
      = match b.lease with
        | some l => r.uses.free l.1 l.2
        | none => r.uses := by
  unfold release lease
  cases b.key with
  | none => rfl
  | some key =>
      cases b.use with
      | none => rfl
      | some id => rfl

/-- Letting go of a binding takes its lease off the list. -/
theorem accounts_release (h : r.uses.Accounts (b.lease.toList ++ rest)) :
    (b.release r).2.uses.Accounts rest := by
  rw [uses_release]
  cases hl : b.lease with
  | none =>
      rw [hl] at h
      exact h
  | some l =>
      rw [hl] at h
      exact h.free

theorem setKey_cases (b : Binding κ) (r : Resource κ ν) (key : Option (Key κ)) (id : UseId) :
    (b.key = key ∧ (key.isNone ∨ b.use.isSome) ∧ b.setKey r key id = (b, r))
      ∨ (b.setKey r key id).1.key = key ∧ (b.setKey r key id).1.use = key.map (fun _ => id)
          ∧ (b.setKey r key id).2.uses
              = match key with
                | none => (b.release r).2.uses
                | some k => (b.release r).2.uses.register k id := by
  by_cases hsame : b.key = key ∧ (key.isNone ∨ b.use.isSome)
  · exact .inl ⟨hsame.1, hsame.2, if_pos hsame⟩
  · refine .inr ?_
    unfold setKey
    rw [if_neg hsame]
    have huse : (b.release r).1.use = none := by
      unfold release
      split <;> rfl
    cases key with
    | none => exact ⟨rfl, huse, rfl⟩
    | some k => exact ⟨rfl, rfl, rfl⟩

theorem bound_setKey (h : b.Bound) (r : Resource κ ν) (key : Option (Key κ)) (id : UseId) :
    (b.setKey r key id).1.Bound := by
  rcases b.setKey_cases r key id with ⟨_, _, heq⟩ | ⟨hkey, huse, _⟩
  · rw [heq]
    exact h
  · unfold Bound
    rw [hkey, huse, Option.isSome_map]

/-- The lease of a binding after it was told to follow a key: the one it had, or that of the new id. -/
theorem lease_setKey (b : Binding κ) (r : Resource κ ν) (key : Option (Key κ)) (id : UseId) :
    (b.setKey r key id).1.lease = b.lease ∨ (b.setKey r key id).1.lease = key.map fun k => (k, id) := by
  rcases b.setKey_cases r key id with ⟨_, _, heq⟩ | ⟨hkey, huse, _⟩
  · rw [heq]
    exact .inl rfl
  · refine .inr ?_
    unfold lease
    rw [hkey, huse]
    cases key with
    | none => rfl
    | some k => rfl

/-- Following another key puts a new lease in the place of the old one. -/
theorem accounts_setKey (h : r.uses.Accounts (b.lease.toList ++ rest)) (key : Option (Key κ))
    {id : UseId} (hid : id ∉ rest.map Prod.snd) :
    (b.setKey r key id).2.uses.Accounts ((b.setKey r key id).1.lease.toList ++ rest) := by
  rcases b.setKey_cases r key id with ⟨_, _, heq⟩ | ⟨hkey, huse, huses⟩
  · rw [heq]
    exact h
  · have hfreed := accounts_release h
    rw [huses]
    unfold lease
    rw [hkey, huse]
    cases key with
    | none => exact hfreed
    | some k => exact hfreed.register hid k

/-- What leaves a binding's key and use alone, and the uses of its resource. -/
structure Keeps (b : Binding κ) (r : Resource κ ν) (b' : Binding κ) (r' : Resource κ ν) : Prop where
  key : b'.key = b.key
  use : b'.use = b.use
  uses : r'.uses = r.uses

theorem Keeps.lease {b' : Binding κ} {r' : Resource κ ν} (h : b.Keeps r b' r') : b'.lease = b.lease := by
  unfold Binding.lease
  rw [h.key, h.use]

theorem Keeps.bound {b' : Binding κ} {r' : Resource κ ν} (h : b.Keeps r b' r') (hb : b.Bound) :
    b'.Bound := by
  unfold Bound at *
  rw [h.key, h.use, hb]

theorem keeps_setIncludes (b : Binding κ) (r : Resource κ ν) (inc : Includes) :
    b.Keeps r (b.setIncludes inc) r := by
  unfold setIncludes
  split <;> exact ⟨rfl, rfl, rfl⟩

theorem keeps_ask (b : Binding κ) (r : Resource κ ν) (force : Bool) (request : Nat) :
    b.Keeps r (b.ask r force request).binding (b.ask r force request).resource := by
  unfold ask
  split <;> exact ⟨rfl, rfl, rfl⟩

theorem keeps_collect (b : Binding κ) (r : Resource κ ν) (result : Option LoadResult) :
    b.Keeps r (b.collect r result).1 r := by
  unfold collect
  split <;> exact ⟨rfl, rfl, rfl⟩

theorem keeps_poll (b : Binding κ) (r : Resource κ ν) (result : Option LoadResult) (request : Nat) :
    b.Keeps r (b.poll r result request).1.binding (b.poll r result request).1.resource := by
  have hcollect := b.keeps_collect r result
  unfold poll
  dsimp only
  split
  · have hask := (b.collect r result).1.keeps_ask r false request
    exact ⟨hask.key.trans hcollect.key, hask.use.trans hcollect.use, hask.uses⟩
  · exact hcollect

theorem keeps_beginResolve (b : Binding κ) (r : Resource κ ν) :
    b.Keeps r (b.beginResolve r).1 (b.beginResolve r).2.1 := by
  unfold beginResolve
  split <;> exact ⟨rfl, rfl, rfl⟩

theorem keeps_endResolve (b : Binding κ) (r : Resource κ ν) (result : LoadResult) :
    b.Keeps r (b.endResolve r result).1 r := by
  unfold endResolve
  split <;> exact ⟨rfl, rfl, rfl⟩

end Binding

end Larder
