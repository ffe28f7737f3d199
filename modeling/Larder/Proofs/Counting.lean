import Larder.Proofs.Joining
import Larder.Proofs.Stock
import Mathlib.Algebra.GroupWithZero.Nat

/-!
# The counts of running loads are exact

The record of a target counts the loads of it that run. A load adds to the count of each of its targets
when it starts and takes the same away when it ends, once for every time the target stands in its list.
In between anything may happen to the record: it may be marked, outdated, forgotten, written anew. No
operation on records touches the count, not even forgetting, which keeps a record that still counts
something. So the count of a target is at all times what the loads under way have put there, and no end
of a load takes away what is not there.
-/

namespace Larder

namespace Table

variable {κ ν μ : Type}

/-- No key is bound twice. -/
def Distinct (t : Table κ ν) : Prop := t.keys.Nodup

theorem distinct_mapValues {t : Table κ ν} (h : t.Distinct) (f : ν → μ) : (t.mapValues f).Distinct := by
  have hkeys : (t.mapValues f).keys = t.keys := by simp [keys, mapValues, Function.comp_def]
  unfold Distinct
  rw [hkeys]
  exact h

theorem distinct_filterValues {t : Table κ ν} (h : t.Distinct) (p : ν → Bool) :
    (t.filterValues p).Distinct :=
  h.sublist (List.filter_sublist.map Prod.fst)

variable [DecidableEq κ]

/-- Binding a key adds it to the bound ones, if it is not among them. -/
theorem keys_bind (k : κ) (v : ν) (l : List (κ × ν)) :
    (bind k v l).map Prod.fst
      = if k ∈ l.map Prod.fst then l.map Prod.fst else l.map Prod.fst ++ [k] := by
  induction l with
  | nil => simp [bind]
  | cons e rest ih =>
      rw [bind]
      by_cases he : e.1 = k
      · simp [he]
      · have hne : ¬ k = e.1 := fun h => he h.symm
        rw [if_neg he, List.map_cons, ih]
        by_cases hk : k ∈ rest.map Prod.fst
        · rw [if_pos hk, List.map_cons, if_pos (List.mem_cons_of_mem _ hk)]
        · rw [if_neg hk, List.map_cons, if_neg, List.cons_append]
          exact fun h => (List.mem_cons.1 h).elim hne hk

theorem distinct_set {t : Table κ ν} (h : t.Distinct) (k : κ) (v : ν) : (t.set k v).Distinct := by
  unfold Distinct keys set
  rw [keys_bind]
  split
  · exact h
  · rename_i hk
    refine List.nodup_append.2 ⟨h, List.pairwise_singleton _ k, ?_⟩
    intro j hj j' hj' heq
    rw [heq, List.mem_singleton.1 hj'] at hj
    exact hk hj

theorem distinct_erase {t : Table κ ν} (h : t.Distinct) (k : κ) : (t.erase k).Distinct :=
  h.sublist (List.filter_sublist.map Prod.fst)

theorem distinct_modify {t : Table κ ν} (h : t.Distinct) (k : κ) (f : ν → ν) :
    (t.modify k f).Distinct := by
  unfold modify
  split
  · exact distinct_set h k _
  · exact h

/-- Where no key is bound twice, leaving out values leaves out answers. -/
theorem get?_filterValues {t : Table κ ν} (h : t.Distinct) (p : ν → Bool) (k : κ) :
    (t.filterValues p).get? k = (t.get? k).filter p := by
  obtain ⟨l⟩ := t
  unfold Distinct keys at h
  show ((l.filter fun e => p e.2).find? fun e => e.1 = k).map Prod.snd
    = ((l.find? fun e => e.1 = k).map Prod.snd).filter p
  induction l with
  | nil => rfl
  | cons e rest ih =>
      obtain ⟨hhead, hrest⟩ := List.nodup_cons.1 h
      by_cases he : e.1 = k
      · -- the first binding is the only one of its key
        have hnone : (rest.filter fun e => p e.2).find? (fun e => e.1 = k) = none := by
          refine List.find?_eq_none.2 fun e' he' => ?_
          have hmem := List.mem_map_of_mem (f := Prod.fst) (List.mem_filter.1 he').1
          simp only [decide_eq_true_eq]
          intro hk
          exact hhead (he.trans hk.symm ▸ hmem)
        by_cases hp : p e.2 = true
        · simp [hp, he, Option.filter]
        · simp [hp, he, hnone, Option.filter]
      · have hskip : ((e :: rest).find? fun e => e.1 = k) = rest.find? fun e => e.1 = k := by
          simp [he]
        rw [hskip, ← ih hrest]
        by_cases hp : p e.2 = true
        · simp [hp, he]
        · simp [hp]

/-- A table that answers nothing binds nothing. -/
theorem eq_empty_of_get? {t : Table κ ν} (h : ∀ k, t.get? k = none) : t = .empty := by
  obtain ⟨l⟩ := t
  cases l with
  | nil => rfl
  | cons e rest =>
      have hhead := h e.1
      simp [get?] at hhead

end Table

namespace Ledger

variable {κ : Type} [DecidableEq κ]

/-! ## Operations that leave the counts -/

/-- How many loads of a target are noted as running. -/
def loads (l : Ledger κ) (t : Target κ) : Nat := (l.metaOf t).loading

/-- The second ledger counts the loads that the first counts. No target may have two records, or one
of them could come to light when the other is dropped. -/
structure SameCounts (l l' : Ledger κ) : Prop where
  /-- No target gets two records. -/
  distinct : l.metas.Distinct → l'.metas.Distinct
  /-- Every target has as many loads as before. -/
  loads : l.metas.Distinct → ∀ t, l'.loads t = l.loads t

namespace SameCounts

variable {l l' l'' : Ledger κ}

theorem of_metas (h : l'.metas = l.metas) : l.SameCounts l' where
  distinct hl := by rw [h]; exact hl
  loads _ t := by unfold Ledger.loads metaOf meta?; rw [h]

theorem refl (l : Ledger κ) : l.SameCounts l := of_metas rfl

theorem trans (h : l.SameCounts l') (h' : l'.SameCounts l'') : l.SameCounts l'' where
  distinct hl := h'.distinct (h.distinct hl)
  loads hl t := (h'.loads (h.distinct hl) t).trans (h.loads hl t)

/-- A fold of operations that leave the counts leaves them. -/
theorem foldl {α : Type} {f : Ledger κ → α → Ledger κ} (hf : ∀ (l : Ledger κ) (a : α), l.SameCounts (f l a))
    (as : List α) (l : Ledger κ) : l.SameCounts (as.foldl f l) := by
  induction as generalizing l with
  | nil => exact refl l
  | cons a as ih => exact (hf l a).trans (ih (f l a))

end SameCounts

/-- A new record with the old count leaves the counts. -/
theorem sameCounts_setMeta {l : Ledger κ} {t : Target κ} {m : EntryMeta} (h : m.loading = l.loads t) :
    l.SameCounts (l.setMeta t m) where
  distinct hl := Table.distinct_set hl t m
  loads _ u := by
    unfold loads
    rw [metaOf_setMeta]
    split
    · rename_i htu
      rw [h, htu, loads]
    · rfl

theorem sameCounts_markLoadedBy (l : Ledger κ) (t : Target κ) (inc : Includes) (now : Instant)
    (seq : Nat) : l.SameCounts (l.markLoadedBy t inc now seq) := by
  unfold markLoadedBy
  split
  · exact SameCounts.refl l
  · exact sameCounts_setMeta rfl

theorem sameCounts_markWritten (l : Ledger κ) (t : Target κ) (now : Instant) :
    l.SameCounts (l.markWritten t now) := sameCounts_setMeta rfl

theorem sameCounts_markFailed (l : Ledger κ) (t : Target κ) (f : Failure) :
    l.SameCounts (l.markFailed t f) := sameCounts_setMeta rfl

theorem sameCounts_markOutdated (l : Ledger κ) (t : Target κ) (seq : Nat) :
    l.SameCounts (l.markOutdated t seq) where
  distinct hl := Table.distinct_modify hl t _
  loads _ u := by
    unfold loads
    rw [metaOf_markOutdated]
    split <;> rfl

theorem sameCounts_markAllOutdated (l : Ledger κ) (seq : Nat) :
    l.SameCounts (l.markAllOutdated seq) where
  distinct hl := Table.distinct_mapValues hl _
  loads _ u := by
    unfold loads
    rw [metaOf_markAllOutdated]

/-- Forgetting a key keeps its record as long as it counts something. -/
theorem sameCounts_forget (l : Ledger κ) (k : κ) : l.SameCounts (l.forget k) where
  distinct hl := by
    unfold forget
    split
    · exact hl
    · split
      · exact Table.distinct_set hl _ _
      · exact Table.distinct_erase hl _
  loads _ u := by
    unfold loads
    rw [metaOf_forget]
    split <;> rfl

/-- And so does forgetting everything. -/
theorem sameCounts_forgetAll (l : Ledger κ) : l.SameCounts l.forgetAll where
  distinct hl := Table.distinct_mapValues (Table.distinct_filterValues hl _) _
  loads hl u := by
    unfold loads metaOf
    rw [meta?_forgetAll, Table.get?_filterValues hl]
    show (((l.meta? u).filter EntryMeta.isLoading).map EntryMeta.onlyLoading |>.getD {}).loading = _
    cases l.meta? u with
    | none => rfl
    | some m =>
        by_cases hm : m.isLoading = true
        · simp [Option.filter, hm, EntryMeta.onlyLoading]
        · -- a record without loads is dropped, and counted nothing
          have hzero : m.loading = 0 := by simpa [EntryMeta.isLoading] using hm
          simp [Option.filter, hm, hzero]

theorem sameCounts_draw (l : Ledger κ) : l.SameCounts l.draw := SameCounts.of_metas rfl

theorem sameCounts_settle (l : Ledger κ) : l.SameCounts l.settle :=
  SameCounts.of_metas (by unfold settle; split <;> rfl)

theorem sameCounts_stamp (l : Ledger κ) (k : κ) (seq : Nat) : l.SameCounts (l.stamp k seq) :=
  SameCounts.of_metas rfl

/-! ## The start and the end of a load -/

/-- A start counts every target as often as it stands in the list. -/
theorem loads_beginAll (ts : List (Target κ)) (l : Ledger κ) (t : Target κ) :
    (ts.foldl beginAt l).loads t = l.loads t + ts.count t := by
  induction ts generalizing l with
  | nil => simp
  | cons u ts ih =>
      have hhere : (l.beginAt u).loads t = l.loads t + if u = t then 1 else 0 := by
        unfold loads beginAt
        rw [metaOf_setMeta]
        split
        · rename_i hut
          rw [hut]
        · rfl
      rw [List.foldl_cons, ih, hhere, List.count_cons]
      simp only [beq_iff_eq]
      omega

theorem distinct_beginAll {l : Ledger κ} (h : l.metas.Distinct) (ts : List (Target κ)) :
    (ts.foldl beginAt l).metas.Distinct := by
  induction ts generalizing l with
  | nil => exact h
  | cons u ts ih => exact ih (Table.distinct_set h u _)

/-- An end takes away as much as there is, at most as often as the target stands in the list. -/
theorem loads_endAll (ts : List (Target κ)) (l : Ledger κ) (t : Target κ) :
    (ts.foldl endAt l).loads t = l.loads t - ts.count t := by
  induction ts generalizing l with
  | nil => simp
  | cons u ts ih =>
      have hhere : (l.endAt u).loads t = l.loads t - if u = t then 1 else 0 := by
        unfold loads metaOf
        rw [meta?_endAt]
        split
        · cases l.meta? t <;> rfl
        · rfl
      rw [List.foldl_cons, ih, hhere, List.count_cons]
      simp only [beq_iff_eq]
      omega

theorem distinct_finishLoad {l : Ledger κ} (h : l.metas.Distinct) (s : Signature κ) (seq : Nat)
    (ts : List (Target κ)) : (l.finishLoad s seq ts).metas.Distinct := by
  have hfold : ∀ (ts : List (Target κ)) {l : Ledger κ}, l.metas.Distinct →
      (ts.foldl endAt l).metas.Distinct := by
    intro ts
    induction ts with
    | nil => intro l hl; exact hl
    | cons u ts ih => intro l hl; exact ih (Table.distinct_modify hl u _)
  rw [finishLoad_eq]
  split
  · exact hfold ts h
  · exact h

/-- The end of a load that runs takes its targets off the counts. -/
theorem loads_finishLoad {l : Ledger κ} {seq : Nat} (h : seq ∈ l.running) (s : Signature κ)
    (ts : List (Target κ)) (t : Target κ) :
    (l.finishLoad s seq ts).loads t = l.loads t - ts.count t := by
  rw [finishLoad_eq, if_pos (List.contains_iff_mem.2 h), loads_endAll]
  rfl

/-- The end of a load that has ended before takes nothing. -/
theorem metas_finishLoad_of_not_mem {l : Ledger κ} {seq : Nat} (h : seq ∉ l.running)
    (s : Signature κ) (ts : List (Target κ)) : (l.finishLoad s seq ts).metas = l.metas := by
  rw [finishLoad_eq, if_neg (mt List.contains_iff_mem.1 h)]
  rfl

theorem exists_meta_of_loads_pos {l : Ledger κ} {t : Target κ} (h : 0 < l.loads t) :
    ∃ m, l.meta? t = some m ∧ 0 < m.loading := by
  unfold loads metaOf at h
  cases hm : l.meta? t with
  | none => rw [hm] at h; exact absurd h (Nat.lt_irrefl 0)
  | some m => rw [hm] at h; exact ⟨m, rfl, h⟩

theorem isLoading_eq (l : Ledger κ) (t : Target κ) : l.isLoading t = decide (0 < l.loads t) := by
  unfold isLoading loads metaOf
  cases l.meta? t <;> rfl

end Ledger

namespace Cache

variable {κ ν : Type} [EntryKey κ]

/-! ## What the operations of a cache do to the counts -/

theorem sameCounts_removeAll (ks : List κ) (seq : Nat) (c : Cache κ ν) :
    c.ledger.SameCounts (c.removeAll ks seq).ledger := by
  induction ks generalizing c with
  | nil => exact Ledger.SameCounts.refl _
  | cons k ks ih =>
      rw [removeAll_cons]
      exact ((Ledger.sameCounts_forget c.ledger k).trans (Ledger.sameCounts_stamp _ k seq)).trans
        (ih (c.remove k seq))

theorem sameCounts_writeLocally (p : Policy κ ν) (now : Instant) (seq : Nat)
    (entries : List (κ × ν)) (c : Cache κ ν) :
    c.ledger.SameCounts (writeLocally p now seq entries c).1.ledger := by
  fun_induction writeLocally p now seq entries c with
  | case1 c => exact Ledger.SameCounts.refl _
  | case2 k v rest c hw => exact Ledger.SameCounts.refl _
  | case3 k v rest c c' hw ih =>
      obtain ⟨merged, _, rfl⟩ := eq_of_write? hw
      exact ((Ledger.sameCounts_stamp c.ledger k seq).trans
        (Ledger.sameCounts_markWritten _ (.key k) now)).trans ih

theorem sameCounts_writeLoaded (p : Policy κ ν) (now : Instant) (inc : Includes) (seq : Nat)
    (entries : List (κ × ν)) (c : Cache κ ν) :
    c.ledger.SameCounts (writeLoaded p now inc seq entries c).cache.ledger := by
  fun_induction writeLoaded p now inc seq entries c with
  | case1 c => exact Ledger.SameCounts.refl _
  | case2 k v rest c hk ih => exact ih
  | case3 k v rest c hk hw => exact Ledger.SameCounts.refl _
  | case4 k v rest c hk c' hw w ih =>
      obtain ⟨merged, _, rfl⟩ := eq_of_write? hw
      exact ((Ledger.sameCounts_stamp c.ledger k seq).trans
        (Ledger.sameCounts_markLoadedBy _ (.key k) inc now seq)).trans ih

theorem sameCounts_markEach (ks : List κ) (seq : Nat) (l : Ledger κ) :
    l.SameCounts (markEach seq ks l).1 := by
  induction ks generalizing l with
  | nil => exact Ledger.SameCounts.refl l
  | cons k ks ih => exact (Ledger.sameCounts_markOutdated l (.key k) seq).trans (ih _)

theorem sameCounts_markFailures (f : Failure) (sig : Signature κ) (seq : Nat) (l : Ledger κ) :
    l.SameCounts (markFailures f sig seq l) := by
  have hkey : ∀ (l : Ledger κ) (k : κ), l.SameCounts (markFailedUnless f seq l k) := by
    intro l k
    unfold markFailedUnless
    split
    · exact Ledger.SameCounts.refl l
    · exact Ledger.sameCounts_markFailed l (.key k) f
  rw [markFailures_eq]
  exact (Ledger.SameCounts.foldl hkey _ l).trans
    (Ledger.SameCounts.foldl (fun l t => Ledger.sameCounts_markFailed l t f) _ _)

theorem sameCounts_setMany (c : Cache κ ν) (p : Policy κ ν) (now : Instant)
    (entries : List (κ × ν)) : c.ledger.SameCounts (c.setMany p now entries).cache.ledger := by
  have hwrite := (Ledger.sameCounts_draw c.ledger).trans
    (sameCounts_writeLocally p now (c.ledger.seq + 1) entries c.draw)
  rcases ledger_setMany c p now entries with hl | hl
  · rw [hl]; exact hwrite
  · rw [hl]; exact hwrite.trans (Ledger.sameCounts_settle _)

theorem sameCounts_replace (c : Cache κ ν) (p : Policy κ ν) (now : Instant)
    (entries : List (κ × ν)) : c.ledger.SameCounts (c.replace p now entries).cache.ledger := by
  have hdrop := (Ledger.sameCounts_draw c.ledger).trans
    (sameCounts_removeAll (c.replaceDrops entries) (c.ledger.seq + 1) c.draw)
  have hwrite := hdrop.trans
    (sameCounts_writeLocally p now (c.ledger.seq + 1) entries (c.replaceBase entries))
  rcases ledger_replace c p now entries with hl | ⟨_, hl⟩
  · rw [hl]; exact hwrite
  · rw [hl]
    exact (hwrite.trans (Ledger.sameCounts_markWritten _ _ now)).trans (Ledger.sameCounts_settle _)

theorem sameCounts_update (c : Cache κ ν) (k : κ) (f : ν → ν) :
    c.ledger.SameCounts (c.update k f).cache.ledger := by
  cases hk : c.data.get? k with
  | none => rw [update_of_none hk]; exact Ledger.SameCounts.refl _
  | some v =>
      rw [ledger_update hk]
      exact ((Ledger.sameCounts_draw c.ledger).trans (Ledger.sameCounts_stamp _ k _)).trans
        (Ledger.sameCounts_settle _)

theorem sameCounts_delete (c : Cache κ ν) (key : Key κ) :
    c.ledger.SameCounts (c.delete key).cache.ledger := by
  rw [ledger_delete]
  exact ((Ledger.sameCounts_draw c.ledger).trans (sameCounts_removeAll _ _ c.draw)).trans
    (Ledger.sameCounts_settle _)

theorem sameCounts_clear (c : Cache κ ν) : c.ledger.SameCounts c.clear.cache.ledger :=
  have hclear : c.ledger.SameCounts (c.ledger.draw.stampClear (c.ledger.seq + 1)) :=
    Ledger.SameCounts.of_metas rfl
  (hclear.trans (Ledger.sameCounts_forgetAll _)).trans (Ledger.sameCounts_settle _)

theorem sameCounts_purge (c : Cache κ ν) (tracked : List (Key κ)) (cutoff : Instant) :
    c.ledger.SameCounts (c.purge tracked cutoff).cache.ledger := by
  by_cases he : c.expired tracked cutoff = []
  · rw [purge_of_nil he]; exact Ledger.SameCounts.refl _
  · rw [ledger_purge he]
    have hdrop := (Ledger.sameCounts_draw c.ledger).trans
      (sameCounts_removeAll (c.expired tracked cutoff) (c.ledger.seq + 1) c.draw)
    exact (hdrop.trans (Ledger.sameCounts_markOutdated _ _ _)).trans (Ledger.sameCounts_settle _)

theorem sameCounts_markOutdated (c : Cache κ ν) (key : Key κ) :
    c.ledger.SameCounts (c.markOutdated key).cache.ledger := by
  have halias : c.ledger.SameCounts (markAlias c.ledger.draw key (c.ledger.seq + 1)) := by
    refine (Ledger.sameCounts_draw c.ledger).trans ?_
    unfold markAlias
    split
    · exact Ledger.sameCounts_markOutdated _ _ _
    · exact Ledger.SameCounts.refl _
  rw [ledger_markOutdated]
  exact (halias.trans (sameCounts_markEach _ _ _)).trans (Ledger.sameCounts_settle _)

theorem sameCounts_markAllOutdated (c : Cache κ ν) :
    c.ledger.SameCounts c.markAllOutdated.cache.ledger :=
  ((Ledger.sameCounts_draw c.ledger).trans (Ledger.sameCounts_markAllOutdated _ _)).trans
    (Ledger.sameCounts_settle _)

/-- The commit of a load does nothing to the counts but end the load. -/
theorem sameCounts_commit (c : Cache κ ν) (name : String) (p : Policy κ ν) (now : Instant)
    (load : PendingLoad κ) (answer : Except Cause (List (κ × ν))) :
    (c.finished load).ledger.SameCounts (c.commit name p now load answer).cache.ledger := by
  cases answer with
  | error cause =>
      rw [ledger_commit_error]
      exact (sameCounts_markFailures _ _ _ _).trans (Ledger.sameCounts_settle _)
  | ok entries =>
      have hwrite := (sameCounts_removeAll (c.commitDrops load entries) load.seq (c.finished load)).trans
        (sameCounts_writeLoaded p now load.signature.includes load.seq entries _)
      rcases ledger_commit_ok c name p now load entries with ⟨_, hl⟩ | ⟨_, hl⟩
      · rw [hl]; exact hwrite
      · rw [hl]
        refine (hwrite.trans ?_).trans (Ledger.sameCounts_settle _)
        exact Ledger.SameCounts.foldl
          (fun l t => Ledger.sameCounts_markLoadedBy l t load.signature.includes now load.seq) _ _

end Cache

namespace Busy

variable {κ ν : Type} [EntryKey κ]

/-! ## Runs -/

/-- How often a target stands in the lists of some loads. -/
def demand (loads : List (PendingLoad κ)) (t : Target κ) : Nat :=
  (loads.map fun load => load.targets.count t).sum

theorem demand_append (loads : List (PendingLoad κ)) (load : PendingLoad κ) (t : Target κ) :
    demand (loads ++ [load]) t = demand loads t + load.targets.count t := by
  simp [demand]

/-- Without one of the loads, its share is missing. -/
theorem demand_without {loads : List (PendingLoad κ)}
    (hloads : loads.Pairwise fun l l' => l.seq < l'.seq) {load : PendingLoad κ} (h : load ∈ loads)
    (t : Target κ) :
    demand loads t = demand (loads.filter fun l => ¬ l.seq = load.seq) t + load.targets.count t := by
  unfold demand
  induction hloads with
  | nil => exact absurd h List.not_mem_nil
  | @cons l ls hhead _ ih =>
      by_cases hl : l.seq = load.seq
      · -- the numbers grow, so this is the load and all after it stay
        obtain rfl : load = l := by
          rcases List.mem_cons.1 h with heq | hin
          · exact heq
          · have := hhead load hin
            omega
        have hrest : ls.filter (fun l => ¬ l.seq = load.seq) = ls := by
          refine List.filter_eq_self.2 fun l' hl' => ?_
          have := hhead l' hl'
          simp only [decide_eq_true_eq]
          omega
        rw [List.filter_cons_of_neg (by simp), hrest, List.map_cons, List.sum_cons, Nat.add_comm]
      · have hin : load ∈ ls := (List.mem_cons.1 h).resolve_left fun heq => hl (by rw [heq])
        rw [List.filter_cons_of_pos (by simpa using hl), List.map_cons, List.sum_cons, ih hin,
          List.map_cons, List.sum_cons, Nat.add_assoc]

theorem count_le_demand {loads : List (PendingLoad κ)} {load : PendingLoad κ} (h : load ∈ loads)
    (t : Target κ) : load.targets.count t ≤ demand loads t := by
  unfold demand
  induction loads with
  | nil => exact absurd h List.not_mem_nil
  | cons l ls ih =>
      rw [List.map_cons, List.sum_cons]
      rcases List.mem_cons.1 h with rfl | hin
      · exact Nat.le_add_right _ _
      · exact Nat.le_trans (ih hin) (Nat.le_add_left _ _)

/-- The counts are those of the loads under way. -/
structure Counted (b : Busy κ ν) : Prop where
  /-- No target has two records. -/
  distinct : b.ledger.metas.Distinct
  /-- The count of a target is what the loads under way have of it. -/
  loads : ∀ t, b.ledger.loads t = demand b.pending t

theorem Counted.of_sameCounts {b b' : Busy κ ν} (h : b.Counted)
    (hl : b.ledger.SameCounts b'.ledger) (hp : b'.pending = b.pending) : b'.Counted where
  distinct := hl.distinct h.distinct
  loads t := by rw [hl.loads h.distinct, h.loads, hp]

/-- The ledger knows of the end of a load that broke off. -/
theorem Sound.not_mem_running_of_broken {b : Busy κ ν} (hb : Sound b) {load : PendingLoad κ}
    (h : load ∈ b.broken) : load.seq ∉ b.ledger.running := by
  intro hrun
  obtain ⟨l, hl, hseq⟩ := (hb.running load.seq).1 hrun
  exact hb.apart l hl load h hseq

/-- The end of a load, with whatever is done besides. -/
theorem Counted.ends {b b' : Busy κ ν} (h : b.Counted) (hb : Sound b) {load : PendingLoad κ}
    (hloose : load ∈ b.pending ++ b.broken) (hl : (b.cache.finished load).ledger.SameCounts b'.ledger)
    (hp : b'.pending = b.pending.filter fun l => ¬ l.seq = load.seq) : b'.Counted := by
  have hdistinct : (b.cache.finished load).ledger.metas.Distinct :=
    Ledger.distinct_finishLoad h.distinct _ _ _
  refine ⟨hl.distinct hdistinct, fun t => ?_⟩
  rw [hl.loads hdistinct, hp]
  show (b.ledger.finishLoad load.signature load.seq load.targets).loads t = _
  rcases List.mem_append.1 hloose with hpending | hbroken
  · rw [Ledger.loads_finishLoad (hb.mem_running hpending), h.loads, demand_without hb.ordered hpending]
    omega
  · -- a load that broke off is not under way, and has been taken off the counts already
    have hnot := hb.not_mem_running_of_broken hbroken
    have hall : b.pending.filter (fun l => ¬ l.seq = load.seq) = b.pending := by
      refine List.filter_eq_self.2 fun l hl => ?_
      simpa using hb.apart l hl load hbroken
    rw [hall, ← h.loads]
    exact (Ledger.SameCounts.of_metas (Ledger.metas_finishLoad_of_not_mem hnot _ _)).loads h.distinct t

theorem counted_new (name : String) (policy : Policy κ ν) : (new name policy).Counted :=
  ⟨List.nodup_nil, fun _ => rfl⟩

theorem counted_step {b : Busy κ ν} (hb : Sound b) (h : b.Counted) (op : Op κ ν) :
    (b.step op).Counted := by
  cases op with
  | setMany now entries => exact h.of_sameCounts (b.cache.sameCounts_setMany b.policy now entries) rfl
  | replace now entries => exact h.of_sameCounts (b.cache.sameCounts_replace b.policy now entries) rfl
  | update k f => exact h.of_sameCounts (b.cache.sameCounts_update k f) rfl
  | delete key => exact h.of_sameCounts (b.cache.sameCounts_delete key) rfl
  | clear => exact h.of_sameCounts b.cache.sameCounts_clear rfl
  | markOutdated key => exact h.of_sameCounts (b.cache.sameCounts_markOutdated key) rfl
  | markAllOutdated => exact h.of_sameCounts b.cache.sameCounts_markAllOutdated rfl
  | purge tracked cutoff => exact h.of_sameCounts (b.cache.sameCounts_purge tracked cutoff) rfl
  | register name r => exact ⟨h.distinct, h.loads⟩
  | start key inc force =>
      rw [step_start]
      rcases b.cache.start_cases b.name b.policy key inc force with ⟨hcache, hresult⟩ | ⟨_, hstart⟩
      · rw [hcache]
        refine h.of_sameCounts (Ledger.SameCounts.refl _) ?_
        dsimp only
        split
        · rename_i load heq
          exact absurd heq (hresult load)
        · rfl
      · rw [hstart]
        refine ⟨Ledger.distinct_beginAll (l := b.ledger.draw) h.distinct _, fun t => ?_⟩
        rw [demand_append, ← h.loads]
        exact Ledger.loads_beginAll _ b.ledger.draw t
  | commit seq now answer =>
      cases hp : b.pending? seq with
      | none => rw [step_commit_of_none hp]; exact h
      | some load =>
          obtain ⟨hmem, rfl⟩ := pending?_spec hp
          rw [step_commit_of_some hp]
          exact h.ends hb (List.mem_append_left _ hmem)
            (b.cache.sameCounts_commit b.name b.policy now load answer) rfl
  | abort seq =>
      cases hl : b.loose? seq with
      | none => rw [step_abort_of_none hl]; exact h
      | some load =>
          obtain ⟨hmem, rfl⟩ := loose?_spec hl
          rw [step_abort_of_some hl]
          exact h.ends hb hmem (Ledger.sameCounts_settle _) rfl

theorem counted_reachable {b : Busy κ ν} (hb : Reachable b) : b.Counted := by
  induction hb with
  | init name policy => exact counted_new name policy
  | tail hb op ih => exact counted_step (sound_reachable hb) ih op

/-- The ledger lists the loads under way, in the order in which they started. -/
theorem running_reachable {b : Busy κ ν} (hb : Reachable b) :
    b.ledger.running = b.pending.map PendingLoad.seq := by
  induction hb with
  | init name policy => rfl
  | @tail b hb op ih =>
      cases b.step_case op with
      | idle hl hp _ _ _ => rw [hl, hp, ih]
      | change W T hturns hp _ _ _ =>
          rw [hturns.running, hp, ← ih]
          rfl
      | starts load _ _ hl hp _ _ _ =>
          rw [hl, Ledger.running_startLoad, hp, List.map_append, ← ih]
          rfl
      | ends load _ W T hturns hp _ _ _ =>
          rw [hturns.running, Ledger.running_finishLoad, hp, ih, List.filter_map]
          rfl

/-- Where no load is under way, nothing loads. -/
theorem Counted.isLoading_of_nil {b : Busy κ ν} (h : b.Counted) (hnone : b.pending = [])
    (t : Target κ) : b.ledger.isLoading t = false := by
  rw [Ledger.isLoading_eq, h.loads, hnone]
  rfl

/-- While a load ends, each of its targets still has a record that counts it when its turn comes. -/
theorem Counted.exists_meta_endAt {b : Busy κ ν} (h : b.Counted) (hb : Sound b)
    {load : PendingLoad κ} (hload : load ∈ b.pending) {done : List (Target κ)} {t : Target κ}
    {rest : List (Target κ)} (htargets : load.targets = done ++ t :: rest) :
    ∃ m, (b.ledger.finishLoad load.signature load.seq done).meta? t = some m ∧ 0 < m.loading := by
  refine Ledger.exists_meta_of_loads_pos ?_
  have hcount : load.targets.count t = done.count t + (rest.count t + 1) := by
    rw [htargets, List.count_append, List.count_cons_self]
  have hle := count_le_demand hload t
  rw [Ledger.loads_finishLoad (hb.mem_running hload), h.loads]
  omega

/--
**The counts of running loads are exact.**

In every state that a cache can come to, the count of a target is the number of times it stands in
the targets of the loads under way, as these were resolved when the loads started. So whenever a load
ends, every target finds a record that counts at least this load when its turn comes, and nothing is
taken from zero; the cleanup after a load that broke off takes nothing. The ledger lists exactly the
loads under way, and when there are none, nothing is loading and there is nothing to join.
-/
theorem loading_counts_exact {b : Busy κ ν} (hb : Reachable b) :
    (∀ t, (b.ledger.metaOf t).loading
        = (b.pending.map fun load => load.targets.count t).sum)
      ∧ (∀ load ∈ b.pending, ∀ done t rest, load.targets = done ++ t :: rest →
          ∃ m, (b.ledger.finishLoad load.signature load.seq done).meta? t = some m ∧ 0 < m.loading)
      ∧ (∀ load ∈ b.broken,
          (b.ledger.finishLoad load.signature load.seq load.targets).metas = b.ledger.metas)
      ∧ b.ledger.running = b.pending.map PendingLoad.seq
      ∧ (b.pending = [] →
          (∀ key, b.cache.isLoading key = false) ∧ (∀ t, b.ledger.isLoading t = false)
            ∧ b.ledger.inFlight = .empty) := by
  have hcounted := counted_reachable hb
  refine ⟨hcounted.loads, fun load hload done t rest htargets => ?_, fun load hload => ?_,
    running_reachable hb, fun hnone => ⟨fun key => ?_, hcounted.isLoading_of_nil hnone, ?_⟩⟩
  · exact hcounted.exists_meta_endAt (sound_reachable hb) hload htargets
  · exact Ledger.metas_finishLoad_of_not_mem ((sound_reachable hb).not_mem_running_of_broken hload) _ _
  · refine List.any_eq_false.2 fun t _ => ?_
    rw [hcounted.isLoading_of_nil hnone t]
    exact Bool.false_ne_true
  · refine Table.eq_empty_of_get? fun s => ?_
    cases hs : b.ledger.inFlight.get? s with
    | none => rfl
    | some e =>
        have hheld := (placed_reachable hb).held s e hs
        rw [hnone] at hheld
        exact absurd hheld List.not_mem_nil

/-- Two loads of a list with a repeated key run, one of them overtaken: the key counts four times. -/
theorem loading_counts_exact_repeated :
    let load : Op String Nat := .start (.list ["a", "a"]) Includes.none false
    let b := (new "entries" {}).run [load, .delete (.single "a"), load]
    (b.ledger.metaOf (.key "a")).loading = 4 ∧ b.ledger.running = [1, 3] := by
  intro load b
  have h := loading_counts_exact (b := b) ((Reachable.init "entries" {}).run _)
  exact ⟨(h.1 (.key "a")).trans (by decide +kernel), h.2.2.2.1.trans (by decide +kernel)⟩

end Busy

end Larder
