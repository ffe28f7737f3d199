import Larder.Proofs.Commit
import Larder.Proofs.Entries
import Larder.Proofs.Joining

/-!
# What an eviction leaves fresh

A purge takes entries out of a cache that are not outdated, only unused. What held them is then no
longer complete and should be loaded again. The purge forgets the record of every entry it evicts, and
marks the alias for all as outdated. That reaches the keys that name an evicted entry and the alias for
all, and the loads of these that are under way cannot be joined any more. It reaches no other alias:
an alias has a record of its own, and if it stood for the entry a moment ago, it now stands for one
entry less and is as fresh as it was.
-/

namespace Larder

namespace Cache

variable {κ ν : Type} [EntryKey κ]

/-! ## The records after a purge -/

/-- A key is outdated if the record of one of its targets is. -/
theorem isOutdated_eq_any (c : Cache κ ν) (key : Key κ) (inc : Includes) :
    c.isOutdated key inc = (c.targets key).any fun t => c.ledger.isOutdated t inc := by
  unfold isOutdated targets
  rw [List.any_append, List.any_map, Bool.or_comm]
  cases key.asAlias <;> simp [Function.comp_def]

/-- An alias is the target of the key it is, and of no other. -/
theorem named_mem_targets {c : Cache κ ν} {key : Key κ} {a : Alias} :
    .named a ∈ c.targets key ↔ key = .byAlias a := by
  unfold targets
  cases key with
  | single k => simp [Key.asAlias]
  | list ks => simp [Key.asAlias]
  | byAlias a' => simp [Key.asAlias, eq_comm]

theorem not_fresh_removeAll {ks : List κ} {k : κ} (hk : k ∈ ks) (seq : Nat) (c : Cache κ ν) :
    ¬ (c.removeAll ks seq).ledger.Fresh (.key k) := by
  induction ks generalizing c with
  | nil => exact absurd hk List.not_mem_nil
  | cons j ks ih =>
      rw [removeAll_cons]
      by_cases hin : k ∈ ks
      · exact ih hin (c.remove j seq)
      · obtain rfl : k = j := (List.mem_cons.1 hk).resolve_right hin
        intro hfresh
        exact ((Ledger.fresh_forget c.ledger k (.key k)).1 (fresh_of_removeAll hfresh)).1 rfl

section

variable {c : Cache κ ν} {tracked : List (Key κ)} {cutoff : Instant}

/-- A purge answers what it has evicted. -/
theorem result_purge : (c.purge tracked cutoff).result = c.expired tracked cutoff := by
  unfold purge
  split
  · rename_i heq
    exact heq.symm
  · rfl

/-- **A purge that evicts something outdates what it evicts and the alias for all, and nothing else.** -/
theorem isOutdated_purge (he : c.expired tracked cutoff ≠ []) (t : Target κ) (inc : Includes) :
    (c.purge tracked cutoff).cache.ledger.isOutdated t inc = true
      ↔ t ∈ (c.expired tracked cutoff).map Target.key ∨ t = .named Alias.all
        ∨ c.ledger.isOutdated t inc = true := by
  by_cases hkey : t ∈ (c.expired tracked cutoff).map Target.key
  · obtain ⟨k, hk, rfl⟩ := List.mem_map.1 hkey
    refine iff_of_true (Ledger.isOutdated_of_not_fresh ?_ inc) (Or.inl hkey)
    rw [ledger_purge he, Ledger.fresh_settle, Ledger.fresh_markOutdated]
    exact fun h => not_fresh_removeAll hk _ c.draw h.2
  · by_cases hall : t = .named Alias.all
    · subst hall
      exact iff_of_true (Ledger.isOutdated_of_not_fresh (not_fresh_purge he) inc) (Or.inr (Or.inl rfl))
    · have hmeta : (c.purge tracked cutoff).cache.ledger.meta? t = c.ledger.meta? t := by
        rw [ledger_purge he, Ledger.meta?_settle, Ledger.meta?_markOutdated, if_neg (Ne.symm hall),
          meta?_removeAll hkey]
        rfl
      rw [Ledger.isOutdated_congr hmeta]
      simp [hkey, hall]

/-- The same for a key: one of its targets afterwards is what counts. -/
theorem isOutdated_purge_key (he : c.expired tracked cutoff ≠ []) (key : Key κ) (inc : Includes) :
    (c.purge tracked cutoff).cache.isOutdated key inc = true
      ↔ ∃ t ∈ (c.purge tracked cutoff).cache.targets key,
        t ∈ (c.expired tracked cutoff).map Target.key ∨ t = .named Alias.all
          ∨ c.ledger.isOutdated t inc = true := by
  rw [isOutdated_eq_any, List.any_eq_true]
  exact exists_congr fun t => and_congr_right fun _ => isOutdated_purge he t inc

end

end Cache

namespace Busy

variable {κ ν : Type} [EntryKey κ]

/-! ## The loads under way -/

/-- Every load under way has what its key asks for among its targets. -/
def Asked (b : Busy κ ν) : Prop :=
  ∀ load ∈ b.pending, ∀ t ∈ load.signature.key.requested, t ∈ load.targets

theorem requested_subset_targets (c : Cache κ ν) {key : Key κ} {t : Target κ}
    (ht : t ∈ key.requested) : t ∈ c.targets key := by
  cases key with
  | single k => exact ht
  | list ks => exact ht
  | byAlias a => exact List.mem_append_right _ ht

theorem asked_step {b : Busy κ ν} (h : b.Asked) (op : Op κ ν) : (b.step op).Asked := by
  cases op with
  | start key inc force =>
      rw [step_start]
      rcases b.cache.start_cases b.name b.policy key inc force with ⟨_, hnone⟩ | ⟨_, hstart⟩
      · intro load hload
        dsimp only at hload
        split at hload
        · rename_i heq
          exact absurd heq (hnone _)
        · exact h load hload
      · rw [hstart]
        intro load hload t ht
        rcases List.mem_append.1 hload with hold | hnew
        · exact h load hold t ht
        · obtain rfl := List.mem_singleton.1 hnew
          exact requested_subset_targets b.cache ht
  | commit seq now answer =>
      cases hp : b.pending? seq with
      | none => rw [step_commit_of_none hp]; exact h
      | some load =>
          rw [step_commit_of_some hp]
          exact fun l hl => h l (List.mem_filter.1 hl).1
  | abort seq =>
      cases hl : b.loose? seq with
      | none => rw [step_abort_of_none hl]; exact h
      | some load =>
          rw [step_abort_of_some hl]
          exact fun l hl => h l (List.mem_filter.1 hl).1
  | _ => exact h

theorem asked_reachable {b : Busy κ ν} (hb : Reachable b) : b.Asked := by
  induction hb with
  | init name policy => exact fun load hload => absurd hload List.not_mem_nil
  | tail _ op ih => exact asked_step ih op

/-- A load that can be joined is under way, and nothing that its key asks for has been invalidated. -/
theorem pending_of_joinable? {b : Busy κ ν} (hb : Reachable b) {s : Signature κ} {n : Nat}
    (h : b.ledger.joinable? s = some n) :
    ∃ load ∈ b.pending, load.signature = s ∧ load.seq = n
      ∧ ∀ t ∈ s.key.requested, b.ledger.isInvalidated t n = false := by
  obtain ⟨e, hin, rfl, hvalid⟩ := Ledger.joinable?_eq_some.1 h
  have hheld := (placed_reachable hb).held s e hin
  exact ⟨_, hheld, rfl, rfl, fun t ht => hvalid t (asked_reachable hb _ hheld t ht)⟩

/-- A load that a step overtakes at something that was asked for cannot be joined after it. -/
theorem joinable?_of_overtakes {b : Busy κ ν} (hb : Reachable b) {op : Op κ ν} {key : Key κ}
    {t : Target κ} (ht : t ∈ key.requested) (hover : ∀ n, b.Overtakes t n op)
    (hpending : (b.step op).pending = b.pending) (inc : Includes) :
    (b.step op).ledger.joinable? ⟨key, inc⟩ = none := by
  cases hj : (b.step op).ledger.joinable? ⟨key, inc⟩ with
  | none => rfl
  | some n =>
      obtain ⟨load, hload, _, rfl, hvalid⟩ := pending_of_joinable? (hb.tail op) hj
      have hinv := (isInvalidated_step (sound_reachable hb) hload t).2
        (Or.inr ⟨hpending ▸ hload, hover load.seq⟩)
      rw [hvalid t ht] at hinv
      exact Bool.noConfusion hinv

/-! ## Keys that stood for what was evicted -/

/-- A key that names an evicted entry, and the alias for all, ask for something that the purge
overtakes. -/
theorem overtakes_of_evicted {b : Busy κ ν} {tracked : List (Key κ)} {cutoff : Instant} {k : κ}
    (hk : k ∈ b.cache.expired tracked cutoff) {key : Key κ} (hkey : k ∈ b.cache.resolve key)
    (htold : key.asAlias = none ∨ key = Key.all) :
    ∃ t ∈ key.requested, (t = .key k ∨ t = .named Alias.all)
      ∧ ∀ n, b.Overtakes t n (.purge tracked cutoff) := by
  rcases htold with hnone | rfl
  · refine ⟨.key k, ?_, Or.inl rfl, fun _ => Or.inr hk⟩
    cases key with
    | single j => exact List.mem_append_left _ (List.mem_map_of_mem hkey)
    | list ks => exact List.mem_append_left _ (List.mem_map_of_mem hkey)
    | byAlias a => cases hnone
  · exact ⟨.named Alias.all, List.mem_cons_self, Or.inr rfl,
      fun _ => Or.inl ⟨rfl, List.ne_nil_of_mem hk⟩⟩

section

variable {b : Busy κ ν} {tracked : List (Key κ)} {cutoff : Instant} {k : κ} {key : Key κ}

/-- A key that names an evicted entry, and the alias for all, are outdated for every request. -/
theorem isOutdated_of_evicted (hk : k ∈ b.cache.expired tracked cutoff)
    (hkey : k ∈ b.cache.resolve key) (htold : key.asAlias = none ∨ key = Key.all) (inc : Includes) :
    (b.step (.purge tracked cutoff)).cache.isOutdated key inc = true := by
  obtain ⟨t, ht, hcase, _⟩ := overtakes_of_evicted hk hkey htold
  refine (Cache.isOutdated_purge_key (List.ne_nil_of_mem hk) key inc).2
    ⟨t, requested_subset_targets _ ht, ?_⟩
  rcases hcase with rfl | rfl
  · exact Or.inl (List.mem_map_of_mem hk)
  · exact Or.inr (Or.inl rfl)

/-- And the next load of it is run, unless it is refused. -/
theorem start_of_evicted (hb : Reachable b) (hk : k ∈ b.cache.expired tracked cutoff)
    (hkey : k ∈ b.cache.resolve key) (htold : key.asAlias = none ∨ key = Key.all) {inc : Includes}
    {b' : Busy κ ν} (hstep : b.step (.purge tracked cutoff) = b')
    (hvalid : b'.cache.rejection b'.name b'.policy key = none) :
    (b'.cache.start b'.name b'.policy key inc false).result = .begun (b'.cache.nextLoad key inc) := by
  subst hstep
  obtain ⟨t, ht, _, hover⟩ := overtakes_of_evicted hk hkey htold
  have hjoin : (b.step (.purge tracked cutoff)).cache.ledger.joinable? ⟨key, inc⟩ = none :=
    joinable?_of_overtakes hb ht hover rfl inc
  rw [Cache.start_of_wanted hvalid (Or.inr (isOutdated_of_evicted hk hkey htold inc)), hjoin]

end

/--
**What an eviction leaves fresh.**

A purge evicts an entry that a key stood for. The key is outdated then, for every request, if it names
its entries or is the alias for all, and the next load of it is run: none that is under way is joined.
Any other alias is outdated exactly if its own record was, or one of the entries it still stands for is
evicted or was outdated before.
-/
theorem isOutdated_after_eviction_iff {b : Busy κ ν} (hb : Reachable b) {tracked : List (Key κ)}
    {cutoff : Instant} {k : κ} (hk : k ∈ (b.cache.purge tracked cutoff).result) {key : Key κ}
    (hkey : k ∈ b.cache.resolve key) (inc : Includes) :
    let b' := b.step (.purge tracked cutoff)
    (b'.cache.isOutdated key inc = true
        ↔ (key.asAlias = none ∨ key = Key.all) ∨ ∃ t ∈ b'.cache.targets key,
          t ∈ (b.cache.purge tracked cutoff).result.map Target.key
            ∨ b.ledger.isOutdated t inc = true)
      ∧ (key.asAlias = none ∨ key = Key.all →
          b'.cache.rejection b'.name b'.policy key = none →
          (b'.cache.start b'.name b'.policy key inc false).result
            = .begun (b'.cache.nextLoad key inc)) := by
  intro b'
  rw [Cache.result_purge] at hk ⊢
  have hout : b'.cache.isOutdated key inc = true ↔ _ :=
    Cache.isOutdated_purge_key (List.ne_nil_of_mem hk) key inc
  refine ⟨⟨fun h => ?_, ?_⟩, fun htold hvalid => start_of_evicted hb hk hkey htold rfl hvalid⟩
  · obtain ⟨t, ht, hevicted | rfl | hbefore⟩ := hout.1 h
    · exact Or.inr ⟨t, ht, Or.inl hevicted⟩
    · exact Or.inl (Or.inr (Cache.named_mem_targets.1 ht))
    · exact Or.inr ⟨t, ht, Or.inr hbefore⟩
  · rintro (htold | ⟨t, ht, hevicted | hbefore⟩)
    · exact isOutdated_of_evicted hk hkey htold inc
    · exact hout.2 ⟨t, ht, Or.inl hevicted⟩
    · exact hout.2 ⟨t, ht, Or.inr (Or.inr hbefore)⟩

/-- Everything is being loaded when an entry is written and evicted. The load under way knows nothing of
it; the next one is run all the same. -/
theorem isOutdated_after_eviction_all :
    let b : Busy String Nat :=
      (new "entries" {}).run [.start Key.all Includes.none false, .setMany ⟨0, 0⟩ [("a", 1)]]
    let b' := b.step (.purge [] ⟨0, 0⟩)
    Reachable b ∧ "a" ∈ (b.cache.purge [] ⟨0, 0⟩).result ∧ "a" ∈ b.cache.resolve Key.all
      ∧ b'.pending.map PendingLoad.signature = [⟨Key.all, Includes.none⟩]
      ∧ b'.cache.isOutdated Key.all Includes.none = true
      ∧ (b'.cache.start b'.name b'.policy Key.all Includes.none false).result
        = .begun (b'.cache.nextLoad Key.all Includes.none) := by
  intro b b'
  have hb : Reachable b := (Reachable.init "entries" {}).run _
  have hk : "a" ∈ (b.cache.purge [] ⟨0, 0⟩).result := by decide +kernel
  have hkey : "a" ∈ b.cache.resolve Key.all := by decide +kernel
  have hafter := isOutdated_after_eviction_iff hb hk hkey Includes.none
  exact ⟨hb, hk, hkey, rfl, hafter.1.2 (Or.inl (Or.inr rfl)), hafter.2 (Or.inr rfl) rfl⟩

/-- An alias that stood for an evicted entry stays fresh, and the next load of it is not run: one that
was registered, and the alias for all with a parameter. -/
theorem fresh_after_eviction :
    let named : Key String := .byAlias ⟨"tagged", some "x"⟩
    let all : Key String := .byAlias ⟨Alias.allName, some "x"⟩
    let load (key : Key String) : List (Op String Nat) :=
      [.start key Includes.none false, .commit 1 ⟨0, 0⟩ (.ok [("a", 1)])]
    let b : Busy String Nat :=
      (new "entries" {}).run (.register "tagged" (fun _ data => data.keys) :: load named)
    let c : Busy String Nat := (new "entries" {}).run (load all)
    let purge : Op String Nat := .purge [] ⟨0, 0⟩
    ("a" ∈ (b.cache.purge [] ⟨0, 0⟩).result ∧ "a" ∈ b.cache.resolve named
        ∧ (b.step purge).cache.isOutdated named Includes.none = false
        ∧ ((b.step purge).step (.start named Includes.none false)).pending.map PendingLoad.seq = [])
      ∧ ("a" ∈ (c.cache.purge [] ⟨0, 0⟩).result ∧ "a" ∈ c.cache.resolve all
        ∧ (c.step purge).cache.isOutdated all Includes.none = false
        ∧ ((c.step purge).step (.start all Includes.none false)).pending.map PendingLoad.seq = []) := by
  decide +kernel

end Busy

end Larder
