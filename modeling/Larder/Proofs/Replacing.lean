import Larder.Proofs.Delivery
import Larder.Proofs.Resolving

/-!
# What replacing leaves

To replace the entries of a cache is to say what exists: what is cached and not among the new entries is
removed, and the new ones are written. The removal is shared with the commit of a load of everything,
which spares what was written after the load had started. Here nothing may be spared. That nothing is
rests on the books: the number that the replacing draws is greater than every stamp there is.

As in any local write, a merge may break down. Then the replacing breaks off. What it has removed and
written by then stays, and nobody is told.
-/

namespace Larder

/-- What is fresh is loaded and not outdated, for a request without includes. -/
theorem Ledger.Fresh.serves_none {κ : Type} [DecidableEq κ] {l : Ledger κ} {t : Target κ}
    (h : l.Fresh t) :
    l.isLoaded t Includes.none = true ∧ l.isOutdated t Includes.none = false := by
  obtain ⟨m, hm, hfresh⟩ := h
  have hcovered : Includes.none.coveredBy m.includes = true := rfl
  unfold EntryMeta.isFresh at hfresh
  rw [Bool.and_eq_true, Bool.not_eq_true'] at hfresh
  unfold isLoaded isOutdated EntryMeta.isStale
  simp only [hm, hfresh.1, hfresh.2, hcovered]
  exact ⟨rfl, rfl⟩

namespace Cache

variable {κ ν : Type} [EntryKey κ]

/-! ## How far entries are written locally -/

/-- Of the entries that are written locally, those of `reached` were written, and the first of `rest`
broke the writing off. -/
structure Fills (p : Policy κ ν) (c : Cache κ ν) (w : Cache κ ν × Bool)
    (entries reached rest : List (κ × ν)) : Prop where
  /-- Entries are taken in order. -/
  split : entries = reached ++ rest
  /-- The writing is complete if nothing is left. -/
  complete : w.2 = true ↔ rest = []
  /-- Every key holds what its values come to. -/
  data : ∀ k, p.combine (c.data.get? k) (valuesOf k reached) = some (w.1.data.get? k)
  /-- What is written is there. -/
  there : ∀ k ∈ reached.map Prod.fst, (w.1.data.get? k).isSome = true
  /-- What is written is fresh. -/
  fresh : ∀ k ∈ reached.map Prod.fst, w.1.ledger.Fresh (.key k)
  /-- What was there stays there. -/
  keeps : ∀ k, (c.data.get? k).isSome = true → (w.1.data.get? k).isSome = true
  /-- What was fresh stays fresh. -/
  keepsFresh : ∀ t, c.ledger.Fresh t → w.1.ledger.Fresh t
  /-- The merge of the first entry that is left broke down. -/
  stuck : ∀ k v more, rest = (k, v) :: more → p.merge (w.1.data.get? k) v = none

variable {p : Policy κ ν} {c : Cache κ ν} {w : Cache κ ν × Bool} {entries reached rest : List (κ × ν)}

theorem Fills.nil (p : Policy κ ν) (c : Cache κ ν) : Fills p c (c, true) [] [] [] where
  split := rfl
  complete := by simp
  data _ := rfl
  there _ hk := absurd hk List.not_mem_nil
  fresh _ hk := absurd hk List.not_mem_nil
  keeps _ hk := hk
  keepsFresh _ ht := ht
  stuck _ _ _ heq := by cases heq

theorem Fills.broken {k : κ} {v : ν} (hv : p.merge (c.data.get? k) v = none) (entries : List (κ × ν)) :
    Fills p c (c, false) ((k, v) :: entries) [] ((k, v) :: entries) where
  split := rfl
  complete := by simp
  data _ := rfl
  there _ hk := absurd hk List.not_mem_nil
  fresh _ hk := absurd hk List.not_mem_nil
  keeps _ hk := hk
  keepsFresh _ ht := ht
  stuck j u more heq := by
    cases heq
    exact hv

theorem Fills.written {k : κ} {v merged : ν} (hv : p.merge (c.data.get? k) v = some merged)
    {c' : Cache κ ν} (hdata : c'.data = c.data.insert k merged)
    (hfresh : ∀ t, c'.ledger.Fresh t ↔ .key k = t ∨ c.ledger.Fresh t)
    (h : Fills p c' w entries reached rest) :
    Fills p c w ((k, v) :: entries) ((k, v) :: reached) rest := by
  have hget : ∀ j, c'.data.get? j = if k = j then some merged else c.data.get? j := by
    intro j
    rw [hdata, Shelf.get?_insert]
  refine ⟨by rw [h.split, List.cons_append], h.complete, fun j => ?_, fun j hj => ?_, fun j hj => ?_,
    fun j hj => ?_, fun t ht => h.keepsFresh t ((hfresh t).2 (Or.inr ht)), h.stuck⟩
  · have hrest := h.data j
    rw [hget] at hrest
    by_cases hkj : k = j
    · subst hkj
      rw [if_pos rfl] at hrest
      rw [valuesOf_cons_self, Policy.combine_cons hv]
      exact hrest
    · rw [if_neg hkj] at hrest
      rw [valuesOf_cons_of_ne hkj]
      exact hrest
  · rcases List.mem_cons.1 hj with rfl | hin
    · refine h.keeps _ ?_
      rw [hget, if_pos rfl]
      rfl
    · exact h.there j hin
  · rcases List.mem_cons.1 hj with rfl | hin
    · exact h.keepsFresh _ ((hfresh _).2 (Or.inl rfl))
    · exact h.fresh j hin
  · refine h.keeps j ?_
    rw [hget]
    split
    · rfl
    · exact hj

/-- Writing locally comes to the end of the entries, or to one whose merge breaks down. -/
theorem exists_fills (p : Policy κ ν) (now : Instant) (seq : Nat) (entries : List (κ × ν))
    (c : Cache κ ν) : ∃ reached rest, Fills p c (writeLocally p now seq entries c) entries reached rest := by
  fun_induction writeLocally p now seq entries c with
  | case1 c => exact ⟨[], [], .nil p c⟩
  | case2 k v entries c hw => exact ⟨[], (k, v) :: entries, .broken (Option.map_eq_none_iff.1 hw) entries⟩
  | case3 k v entries c c' hw ih =>
      obtain ⟨reached, rest, h⟩ := ih
      obtain ⟨merged, hmerge, rfl⟩ := eq_of_write? hw
      exact ⟨(k, v) :: reached, rest, h.written hmerge rfl fun t => Ledger.fresh_markWritten _ _ t now⟩

/-- If no merge breaks down, all entries are written. -/
theorem Fills.rest_of_total (hp : p.Total) (h : Fills p c w entries reached rest) : rest = [] := by
  cases rest with
  | nil => rfl
  | cons e more => exact absurd (h.stuck e.1 e.2 more rfl) (hp _ _)

theorem Fills.mem_entries (h : Fills p c w entries reached rest) {k : κ} (hk : k ∈ reached.map Prod.fst) :
    k ∈ entries.map Prod.fst := by
  rw [h.split, List.map_append]
  exact List.mem_append_left _ hk

/-- A key that was not reached holds what it held. -/
theorem Fills.data_of_not_mem (h : Fills p c w entries reached rest) {k : κ}
    (hk : k ∉ reached.map Prod.fst) : w.1.data.get? k = c.data.get? k := by
  have hvalues : valuesOf k reached = [] := by
    unfold valuesOf
    rw [List.filter_eq_nil_iff.2 fun e he heq => hk ?_, List.map_nil]
    exact List.mem_map.2 ⟨e, he, of_decide_eq_true heq⟩
  have hkept := h.data k
  rw [hvalues] at hkept
  exact (Option.some.inj hkept).symm

/-! ## Replacing -/

section

variable {k : κ}

/-- What replacing removes is all that is cached and missing from the entries, if no stamp is later than
the last number drawn. -/
theorem replaceDrops_eq (h : ∀ k n, c.ledger.seq ≤ n → c.ledger.isSuperseded k n = false)
    (entries : List (κ × ν)) :
    c.replaceDrops entries = c.data.keys.filter fun k => k ∉ entries.map Prod.fst := by
  unfold replaceDrops stale
  refine List.filter_congr fun k _ => ?_
  rw [h k _ (Nat.le_succ _), Bool.not_false, Bool.and_true]
  simp

theorem data_replaceBase (h : ∀ k n, c.ledger.seq ≤ n → c.ledger.isSuperseded k n = false)
    (entries : List (κ × ν)) (k : κ) :
    (c.replaceBase entries).data.get? k
      = if k ∈ entries.map Prod.fst then c.data.get? k else none := by
  have hmem : k ∈ c.replaceDrops entries ↔ (c.data.get? k).isSome = true ∧ k ∉ entries.map Prod.fst := by
    rw [replaceDrops_eq h, List.mem_filter, Shelf.mem_keys, decide_eq_true_eq]
  unfold replaceBase
  by_cases hk : k ∈ entries.map Prod.fst
  · rw [if_pos hk, data_removeAll fun hdrop => (hmem.1 hdrop).2 hk]
    rfl
  · rw [if_neg hk]
    by_cases hcached : (c.data.get? k).isSome = true
    · exact data_removeAll_of_mem (hmem.2 ⟨hcached, hk⟩) _ _
    · rw [data_removeAll fun hdrop => hcached (hmem.1 hdrop).1]
      exact Option.not_isSome_iff_eq_none.1 hcached

/-- The cache after replacing holds what was written, and its records are those of the writing. -/
theorem cache_replace (c : Cache κ ν) (p : Policy κ ν) (now : Instant) (entries : List (κ × ν)) :
    let w := writeLocally p now (c.ledger.seq + 1) entries (c.replaceBase entries)
    (c.replace p now entries).result = w.2 ∧ (c.replace p now entries).cache.data = w.1.data
      ∧ (∀ t, w.1.ledger.Fresh t → (c.replace p now entries).cache.ledger.Fresh t)
      ∧ (w.2 = true → (c.replace p now entries).cache.ledger.Fresh (.named Alias.all)) := by
  intro w
  rcases c.replace_cases p now entries with ⟨hbroken, heq⟩ | ⟨hall, heq⟩
  · rw [heq]
    refine ⟨hbroken.symm, rfl, fun _ ht => ht, fun hall => ?_⟩
    rw [show w.2 = false from hbroken] at hall
    cases hall
  · rw [heq]
    refine ⟨hall.symm, rfl, fun t ht => ?_, fun _ => ?_⟩
    · exact (Ledger.fresh_settle _ t).2 ((Ledger.fresh_markWritten _ _ t now).2 (Or.inr ht))
    · exact (Ledger.fresh_settle _ _).2 ((Ledger.fresh_markWritten _ _ _ now).2 (Or.inl rfl))

/-- A fresh key serves a request for it without includes. -/
theorem serves_single (h : c.ledger.Fresh (.key k)) :
    c.isLoaded (.single k) Includes.none = true ∧ c.isOutdated (.single k) Includes.none = false := by
  rw [isOutdated_single]
  refine ⟨?_, h.serves_none.2⟩
  show (true && [k].all fun k => c.ledger.isLoaded (.key k) Includes.none) = true
  rw [List.all_cons, h.serves_none.1]
  rfl

end

/-- Where the alias for all stands for every entry, it is fresh as soon as its record and every entry
are. -/
theorem not_isOutdated_all (hall : c.resolvers.get? Alias.allName = some fun _ data => data.keys)
    (hnamed : c.ledger.Fresh (.named Alias.all)) (hkeys : ∀ k ∈ c.data.keys, c.ledger.Fresh (.key k)) :
    c.isOutdated Key.all Includes.none = false := by
  have hresolve : c.resolve Key.all = c.data.keys := resolve_byAlias (a := Alias.all) hall
  unfold isOutdated
  rw [hresolve, Bool.or_eq_false_iff]
  refine ⟨hnamed.serves_none.2, List.any_eq_false.2 fun k hk => ?_⟩
  exact Bool.eq_false_iff.1 (hkeys k hk).serves_none.2

end Cache

namespace Busy

variable {κ ν : Type} [EntryKey κ]

theorem breaksOff_replace (b : Busy κ ν) (now : Instant) (entries : List (κ × ν)) :
    b.breaksOff (.replace now entries) = !(b.cache.replace b.policy now entries).result := by
  show (Outcome.wrote (κ := κ) (b.cache.replace b.policy now entries).result).isBrokenOff = _
  cases (b.cache.replace b.policy now entries).result <;> rfl

theorem emits_replace (b : Busy κ ν) (now : Instant) (entries : List (κ × ν)) :
    b.emits (.replace now entries)
      = if b.breaksOff (.replace now entries) then []
        else (if (b.cache.replaceDrops entries).isEmpty then []
          else [.deleted (b.cache.replaceDrops entries)]) ++ [.updated (entries.map Prod.fst)] := by
  rw [breaksOff_replace]
  show (b.cache.replace b.policy now entries).events = _
  rcases b.cache.replace_cases b.policy now entries with ⟨_, heq⟩ | ⟨_, heq⟩
  · rw [heq]
    rfl
  · rw [heq]
    rfl

/-- As long as nobody registers it anew, the alias for all stands for all entries after a replacement. -/
theorem resolver_all_replace {name : String} {policy : Policy κ ν} {ops : List (Op κ ν)}
    (hops : ∀ r, .register Alias.allName r ∉ ops) (now : Instant) (entries : List (κ × ν)) :
    (((new name policy).run ops).step (.replace now entries)).cache.resolvers.get? Alias.allName
      = some fun _ data => data.keys := by
  have hreplace : ∀ r, Op.replace now entries ≠ .register Alias.allName r := by
    intro r heq
    cases heq
  rw [resolver_step _ hreplace, resolver_run _ hops]
  rfl

/--
**Replacing is exact.**

Whatever loads are under way, replacing takes its entries in order, to the end unless a merge breaks
down, and breaks off at the entry where one does. Afterwards a key that was reached holds what its values
come to, merged one after the other into what it held, and is loaded and not outdated. No other key is
cached, but for those of the entries that were not reached: they hold what they held. If the end is
reached, the cached keys are those of the entries, and the event tells which keys are gone, if any are;
and the alias for all is fresh, unless somebody has registered it anew. If not, nobody is told anything.
-/
theorem replace_exact {b : Busy κ ν} (hb : Reachable b) (now : Instant) (entries : List (κ × ν)) :
    let replace : Op κ ν := .replace now entries
    let keys := entries.map Prod.fst
    let before := b.cache.data
    let after := (b.step replace).cache
    let gone := before.keys.filter fun k => k ∉ keys
    ∃ reached rest, entries = reached ++ rest
      ∧ (rest = [] ↔ b.breaksOff replace = false) ∧ (b.policy.Total → rest = [])
      ∧ (∀ k v more, rest = (k, v) :: more → b.policy.merge (after.data.get? k) v = none)
      ∧ (∀ k ∈ reached.map Prod.fst,
          b.policy.combine (before.get? k) (valuesOf k reached) = some (after.data.get? k)
            ∧ (after.data.get? k).isSome = true
            ∧ after.isLoaded (.single k) Includes.none = true
            ∧ after.isOutdated (.single k) Includes.none = false)
      ∧ (∀ k, k ∉ reached.map Prod.fst →
          after.data.get? k = if k ∈ keys then before.get? k else none)
      ∧ (rest = [] → (∀ k, k ∈ after.data.keys ↔ k ∈ keys)
          ∧ b.emits replace = (if gone.isEmpty then [] else [.deleted gone]) ++ [.updated keys]
          ∧ ∀ name policy ops, (new name policy).run ops = b →
              (∀ r, .register Alias.allName r ∉ ops) → after.isOutdated Key.all Includes.none = false)
      ∧ (¬ rest = [] → b.emits replace = []) := by
  intro replace keys before after gone
  have hblank : ∀ k n, b.ledger.seq ≤ n → b.ledger.isSuperseded k n = false :=
    fun k _ hn => (sound_reachable hb).not_isSuperseded k hn
  have hbase := Cache.data_replaceBase hblank entries
  have hgone : b.cache.replaceDrops entries = gone := Cache.replaceDrops_eq hblank entries
  obtain ⟨reached, rest, h⟩ := Cache.exists_fills b.policy now (b.ledger.seq + 1) entries
    (b.cache.replaceBase entries)
  obtain ⟨hresult, hdata, hfresh, hall⟩ := b.cache.cache_replace b.policy now entries
  have hafter : after = (b.cache.replace b.policy now entries).cache := rfl
  have hmem : ∀ k ∈ reached.map Prod.fst, k ∈ keys := fun k hk => h.mem_entries hk
  have hbreaks : b.breaksOff replace = false ↔ rest = [] := by
    rw [breaksOff_replace, hresult, Bool.not_eq_false']
    exact h.complete
  have hthere : ∀ k ∈ reached.map Prod.fst, (after.data.get? k).isSome = true := by
    intro k hk
    rw [hafter, hdata]
    exact h.there k hk
  have hserved : ∀ k ∈ reached.map Prod.fst, after.ledger.Fresh (.key k) :=
    fun k hk => hfresh _ (h.fresh k hk)
  -- a key that was not reached is as the removal has left it
  have hother : ∀ k, k ∉ reached.map Prod.fst →
      after.data.get? k = if k ∈ keys then before.get? k else none := by
    intro k hk
    rw [hafter, hdata, h.data_of_not_mem hk]
    exact hbase k
  refine ⟨reached, rest, h.split, hbreaks.symm, h.rest_of_total, fun k v more hrest => ?_,
    fun k hk => ⟨?_, hthere k hk, Cache.serves_single (hserved k hk)⟩, hother, fun hrest => ?_,
    fun hrest => ?_⟩
  · rw [hafter, hdata]
    exact h.stuck k v more hrest
  · rw [hafter, hdata, ← h.data k, hbase k, if_pos (hmem k hk)]
  · have hreached : reached = entries := by rw [h.split, hrest, List.append_nil]
    have hkeys : ∀ k, k ∈ after.data.keys ↔ k ∈ keys := by
      intro k
      rw [Shelf.mem_keys]
      by_cases hk : k ∈ keys
      · exact iff_of_true (hthere k (hreached ▸ hk)) hk
      · rw [hother k (mt (hmem k) hk), if_neg hk]
        exact iff_of_false Bool.false_ne_true hk
    refine ⟨hkeys, ?_, fun name policy ops hrun hops => ?_⟩
    · rw [emits_replace, hbreaks.2 hrest, hgone]
      rfl
    · have hresolver : after.resolvers.get? Alias.allName = some fun _ data => data.keys := by
        subst hrun
        exact resolver_all_replace hops now entries
      refine Cache.not_isOutdated_all hresolver (hall (h.complete.2 hrest)) fun k hk => ?_
      exact hserved k (hreached ▸ (hkeys k).1 hk)
  · rw [emits_replace, if_pos]
    exact eq_true_of_ne_false (mt hbreaks.1 hrest)

/-- With values that add up, while a load of everything is under way and one key was written after it
started: a key that comes twice gets both values on top of the one it had, and all that is missing from
the entries is gone, the key written meanwhile as well. -/
theorem replace_exact_sums :
    let sums : Policy String Nat := { merge := fun held v => some (held.getD 0 + v) }
    let ops : List (Op String Nat) := [.setMany ⟨0, 0⟩ [("a", 10), ("d", 1)],
      .start Key.all Includes.none true, .setMany ⟨0, 0⟩ [("c", 5)]]
    let b := (new "entries" sums).run ops
    let entries := [("b", 4), ("a", 1), ("a", 2)]
    let replace : Op String Nat := .replace ⟨0, 0⟩ entries
    let after := (b.step replace).cache
    b.pending ≠ [] ∧ (∀ k, k ∈ after.data.keys ↔ k ∈ ["b", "a", "a"])
      ∧ after.data.get? "a" = some 13 ∧ after.isOutdated (.single "a") Includes.none = false
      ∧ b.emits replace = [.deleted ["c", "d"], .updated ["b", "a", "a"]]
      ∧ after.isOutdated Key.all Includes.none = false := by
  intro sums ops b entries replace after
  have hb : Reachable b := (Reachable.init "entries" sums).run _
  obtain ⟨reached, rest, hsplit, _, htotal, _, hreached, _, hend, _⟩ := replace_exact hb ⟨0, 0⟩ entries
  obtain rfl := htotal fun held v h => by cases h
  obtain rfl : entries = reached := hsplit.trans (List.append_nil reached)
  obtain ⟨hkeys, htold, hall⟩ := hend rfl
  obtain ⟨ha, _, _, hfresh⟩ := hreached "a" (by decide)
  have hgone : (b.cache.data.keys.filter fun k => k ∉ entries.map Prod.fst) = ["c", "d"] := by
    decide +kernel
  have hops : ∀ r, .register Alias.allName r ∉ ops := by simp [ops]
  refine ⟨by decide +kernel, hkeys, ?_, hfresh, ?_, hall "entries" sums ops rfl hops⟩
  · exact Option.some.inj (ha.symm.trans (by decide +kernel))
  · rw [htold, hgone]
    rfl

/-- A merge that breaks down at the second entry keeps its key from being there, and nobody is told that
another key is gone. -/
theorem replaced_in_part :
    let hook : Policy String Nat := { merge := fun _ v => if v = 0 then none else some v }
    let b := (new "entries" hook).run [.setMany ⟨0, 0⟩ [("c", 1)]]
    let entries := [("a", 1), ("b", 0)]
    let replace : Op String Nat := .replace ⟨0, 0⟩ entries
    Reachable b ∧ b.cache.data.keys = ["c"] ∧ "b" ∈ entries.map Prod.fst
      ∧ (b.step replace).cache.data.keys = ["a"] ∧ b.emits replace = []
      ∧ (b.step replace).cache.isOutdated Key.all Includes.none = true := by
  intro hook b entries replace
  refine ⟨(Reachable.init "entries" hook).run _, ?_, by decide, ?_, rfl, ?_⟩
  · decide +kernel
  · decide +kernel
  · decide +kernel

end Busy

end Larder
