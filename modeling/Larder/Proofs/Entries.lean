import Larder.Proofs.Changes

/-!
# What the entries of a load come to

The commit of a load treats every key by itself. A key that was written since the load started is
passed over. Any other key that the answer has gets its value from it, and one that the answer lacks
is left alone, or removed if everything was asked for. This file says so, one key at a time, of
commits in which no merge breaks down.
-/

namespace Larder

/-- No merge breaks down. -/
def Policy.Total {κ ν : Type} (p : Policy κ ν) : Prop :=
  ∀ previous next, p.merge previous next ≠ none

/-- A key that was written after a load started was written after every older load started. -/
theorem Ledger.isSuperseded_mono {κ : Type} [DecidableEq κ] {l : Ledger κ} {k : κ} {m n : Nat}
    (hmn : m ≤ n) (h : l.isSuperseded k n = true) : l.isSuperseded k m = true := by
  unfold isSuperseded at h ⊢
  rw [Bool.or_eq_true, decide_eq_true_eq] at h ⊢
  rcases h with hclear | hstamp
  · exact Or.inl (by omega)
  · right
    unfold later at hstamp ⊢
    cases hs : l.stamps.get? k with
    | none =>
        rw [hs] at hstamp
        exact Bool.noConfusion hstamp
    | some s =>
        rw [hs] at hstamp
        simp only [gt_iff_lt, decide_eq_true_eq] at hstamp ⊢
        omega

namespace Cache

variable {κ ν : Type} [EntryKey κ]

/-! ## Removing -/

/-- What is removed is gone. -/
theorem data_removeAll_of_mem {ks : List κ} {j : κ} (hj : j ∈ ks) (seq : Nat) (c : Cache κ ν) :
    (c.removeAll ks seq).data.get? j = none := by
  induction ks generalizing c with
  | nil => exact absurd hj List.not_mem_nil
  | cons k ks ih =>
      rw [removeAll_cons]
      by_cases hin : j ∈ ks
      · exact ih hin (c.remove k seq)
      · -- the first key was the one asked for, and nothing brings it back
        obtain rfl : j = k := (List.mem_cons.1 hj).resolve_right hin
        rw [data_removeAll hin]
        exact (Shelf.get?_erase c.data j j).trans (if_pos rfl)

/-- The keys that are stale at a number are cached, missing, and not written since. -/
theorem mem_stale {c : Cache κ ν} {incoming : List κ} {seq : Nat} {k : κ} :
    k ∈ c.stale incoming seq ↔ (c.data.get? k).isSome = true ∧ k ∉ incoming
      ∧ c.ledger.isSuperseded k seq = false := by
  unfold stale
  rw [List.mem_filter, Shelf.mem_keys]
  simp

/-! ## Writing the entries -/

/-- Only keys of the answer are written. -/
theorem mem_entries_of_mem_writeLoaded {p : Policy κ ν} {now : Instant} {inc : Includes} {seq : Nat}
    {entries : List (κ × ν)} {c : Cache κ ν} {j : κ}
    (h : j ∈ (writeLoaded p now inc seq entries c).keys) : j ∈ entries.map Prod.fst := by
  fun_induction writeLoaded p now inc seq entries c with
  | case1 c => exact absurd h List.not_mem_nil
  | case2 k v rest c hk ih => exact List.mem_cons_of_mem k (ih h)
  | case3 k v rest c hk hw => exact absurd h List.not_mem_nil
  | case4 k v rest c hk c' hw w ih =>
      rcases List.mem_cons.1 h with rfl | h
      · exact List.mem_cons_self
      · exact List.mem_cons_of_mem k (ih h)

/-- A load that is written to its end has written every key of its answer but those it passes over. -/
theorem mem_writeLoaded {p : Policy κ ν} {now : Instant} {inc : Includes} {seq : Nat}
    {entries : List (κ × ν)} {c : Cache κ ν} {j : κ}
    (hc : (writeLoaded p now inc seq entries c).complete = true)
    (hj : j ∈ entries.map Prod.fst) (hs : c.ledger.isSuperseded j seq = false) :
    j ∈ (writeLoaded p now inc seq entries c).keys := by
  fun_induction writeLoaded p now inc seq entries c with
  | case1 c => exact absurd hj List.not_mem_nil
  | case2 k v rest c hk ih =>
      refine ih hc ((List.mem_cons.1 hj).resolve_left ?_) hs
      rintro rfl
      rw [hs] at hk
      exact Bool.noConfusion hk
  | case3 k v rest c hk hw => exact Bool.noConfusion hc
  | case4 k v rest c hk c' hw w ih =>
      obtain ⟨merged, _, rfl⟩ := eq_of_write? hw
      rcases List.mem_cons.1 hj with rfl | hj
      · exact List.mem_cons_self
      · -- the stamp just set bears the load's own number and does not count for it
        refine List.mem_cons_of_mem k (ih hc hj ?_)
        have hstamp := stamps_stamp_markLoadedBy c.ledger k inc now seq
        exact (hstamp.isSuperseded_of_le (Nat.le_refl seq) j).trans hs

/-- What is written is there. -/
theorem isSome_data_writeLoaded {p : Policy κ ν} {now : Instant} {inc : Includes} {seq : Nat}
    {entries : List (κ × ν)} {c : Cache κ ν} {j : κ}
    (h : j ∈ (writeLoaded p now inc seq entries c).keys) :
    ((writeLoaded p now inc seq entries c).cache.data.get? j).isSome = true := by
  fun_induction writeLoaded p now inc seq entries c with
  | case1 c => exact absurd h List.not_mem_nil
  | case2 k v rest c hk ih => exact ih h
  | case3 k v rest c hk hw => exact absurd h List.not_mem_nil
  | case4 k v rest c hk c' hw w ih =>
      by_cases hin : j ∈ w.keys
      · exact ih hin
      · -- no later entry is for the key, so the value written here stays
        obtain rfl : j = k := (List.mem_cons.1 h).resolve_right hin
        obtain ⟨merged, _, rfl⟩ := eq_of_write? hw
        have hhere : w.cache.data.get? j = some merged :=
          (data_writeLoaded hin).trans ((Shelf.get?_insert c.data j j merged).trans (if_pos rfl))
        exact Option.isSome_of_eq_some hhere

theorem complete_writeLoaded {p : Policy κ ν} (hp : p.Total) (now : Instant) (inc : Includes)
    (seq : Nat) (entries : List (κ × ν)) (c : Cache κ ν) :
    (writeLoaded p now inc seq entries c).complete = true := by
  fun_induction writeLoaded p now inc seq entries c with
  | case1 c => rfl
  | case2 k v rest c hk ih => exact ih
  | case3 k v rest c hk hw => exact absurd (Option.map_eq_none_iff.1 hw) (hp _ v)
  | case4 k v rest c hk c' hw w ih => exact ih

/-! ## The commit of a load, key by key -/

section

variable {c : Cache κ ν} {p : Policy κ ν} {now : Instant} {load : PendingLoad κ}
  {entries : List (κ × ν)} {k : κ}

/-- The cache when the first entry of a load is written: the load has ended, and what is stale is
gone. -/
abbrev commitBase (c : Cache κ ν) (load : PendingLoad κ) (entries : List (κ × ν)) : Cache κ ν :=
  (c.finished load).removeAll (c.commitDrops load entries) load.seq

/-- Removing what is stale leaves the load with the same keys to pass over. -/
theorem isSuperseded_commitBase (c : Cache κ ν) (load : PendingLoad κ) (entries : List (κ × ν))
    (k : κ) :
    (c.commitBase load entries).ledger.isSuperseded k load.seq = c.ledger.isSuperseded k load.seq := by
  rw [(stamps_removeAll (c.commitDrops load entries) load.seq (c.finished load)).isSuperseded_of_le
    (Nat.le_refl _), isSuperseded_finished]

/-- And with the same targets not to mark. -/
theorem isInvalidated_commitBase (c : Cache κ ν) (load : PendingLoad κ) (entries : List (κ × ν))
    (t : Target κ) :
    (c.commitBase load entries).ledger.isInvalidated t load.seq
      = c.ledger.isInvalidated t load.seq := by
  rw [(stamps_removeAll (c.commitDrops load entries) load.seq (c.finished load)).isInvalidated_of_le
    (Nat.le_refl _)]
  exact Ledger.isInvalidated_finishLoad c.ledger _ _ _ t load.seq

theorem complete_commitWrites (hp : p.Total) : (c.commitWrites p now load entries).complete = true :=
  complete_writeLoaded hp now load.signature.includes load.seq entries _

theorem mem_entries_of_mem_commitWrites (h : k ∈ (c.commitWrites p now load entries).keys) :
    k ∈ entries.map Prod.fst :=
  mem_entries_of_mem_writeLoaded h

/-- A load that succeeds writes the keys of its answer that were not written since it started. -/
theorem mem_commitWrites (hc : (c.commitWrites p now load entries).complete = true) :
    k ∈ (c.commitWrites p now load entries).keys
      ↔ k ∈ entries.map Prod.fst ∧ c.ledger.isSuperseded k load.seq = false := by
  constructor
  · intro h
    refine ⟨mem_entries_of_mem_writeLoaded h, Bool.eq_false_iff.2 fun hs => ?_⟩
    exact not_mem_commitWrites hs p now entries h
  · rintro ⟨hmem, hs⟩
    exact mem_writeLoaded hc hmem ((isSuperseded_commitBase c load entries k).trans hs)

/-- A load removes nothing unless everything was asked for; then it removes what is cached, is not in
the answer, and was not written since it started. -/
theorem mem_commitDrops :
    k ∈ c.commitDrops load entries ↔ load.signature.key.isAll = true
      ∧ (c.data.get? k).isSome = true ∧ k ∉ entries.map Prod.fst
      ∧ c.ledger.isSuperseded k load.seq = false := by
  unfold commitDrops
  by_cases hall : load.signature.key.isAll = true
  · rw [if_pos hall, mem_stale, isSuperseded_finished]
    simp only [hall, true_and]
    exact Iff.rfl
  · rw [if_neg hall]
    simp [hall]

/-- A key of the answer that was not written since the load started is there after the commit. -/
theorem isSome_data_commit (name : String)
    (hc : (c.commitWrites p now load entries).complete = true)
    (hk : k ∈ entries.map Prod.fst) (hs : c.ledger.isSuperseded k load.seq = false) :
    ((c.commit name p now load (.ok entries)).cache.data.get? k).isSome = true := by
  rw [data_commit_ok]
  exact isSome_data_writeLoaded ((mem_commitWrites hc).2 ⟨hk, hs⟩)

/-- A key that is not in the answer and was not written since the load started is removed if
everything was asked for, and else left as it is. -/
theorem data_commit_of_not_mem (name : String) (p : Policy κ ν) (now : Instant)
    (hk : k ∉ entries.map Prod.fst) (hs : c.ledger.isSuperseded k load.seq = false) :
    (c.commit name p now load (.ok entries)).cache.data.get? k
      = if load.signature.key.isAll = true then none else c.data.get? k := by
  rw [data_commit_ok]
  refine (data_writeLoaded (mt mem_entries_of_mem_commitWrites hk)).trans ?_
  by_cases hdrop : k ∈ c.commitDrops load entries
  · rw [data_removeAll_of_mem hdrop, if_pos (mem_commitDrops.1 hdrop).1]
  · rw [data_removeAll hdrop]
    show c.data.get? k = _
    split
    · -- what is asked for and not removed was not cached
      rename_i hall
      cases hd : c.data.get? k with
      | none => rfl
      | some v => exact absurd (mem_commitDrops.2 ⟨hall, by rw [hd]; rfl, hk, hs⟩) hdrop
    · rfl

end

end Cache

end Larder
