import Larder.Proofs.Entries
import Larder.Proofs.Run

/-!
# What a step does to one key

A cache keeps two things of a key: its record in the ledger and its value. A step can treat them in a
few ways only. It notes the start or the end of a load or a failure, outdates the record, removes the
value and forgets the record, writes a value locally, changes the value in place, brings a value by a
load, or marks the key as loaded without bringing one. `Handles` lists these, with what the step must
be for each.

A step may treat one key several times over: a load removes it, brings it twice, marks it. What holds
of a key before the step and stays true through every one of these holds after the step, and
`stock_step` says so once and for all.
-/

namespace Larder

/-- What a cache keeps of a key. -/
structure Stock (ν : Type) where
  /-- The record, a new one if there is none. -/
  record : EntryMeta
  /-- The value, if the key is cached. -/
  value : Option ν

theorem Target.named_ne_key {κ : Type} {a : Alias} {k : κ} : ¬ Target.named a = .key k := by
  simp

theorem Key.key_mem_requested {κ : Type} {key : Key κ} {k : κ} :
    .key k ∈ key.requested ↔ k ∈ key.explicit := by
  cases key <;> simp [requested, explicit, asAlias]

namespace EntryMeta

/-- What a load asks for is in the record afterwards. -/
theorem coveredBy_afterLoad (m : EntryMeta) (inc : Includes) (now : Instant) :
    inc.coveredBy (m.afterLoad inc now).includes = true := by
  unfold afterLoad
  split
  · exact Includes.coveredBy_union m.includes inc
  · exact Includes.coveredBy_self inc

/-- To be loaded a second time at the same moment changes nothing. -/
theorem afterLoad_afterLoad (m : EntryMeta) (inc : Includes) (now : Instant) :
    (m.afterLoad inc now).afterLoad inc now = m.afterLoad inc now := by
  have hunion : (m.afterLoad inc now).includes.union inc = (m.afterLoad inc now).includes :=
    Includes.union_of_coveredBy (m.coveredBy_afterLoad inc now)
  exact congrArg (fun i => { m.afterLoad inc now with includes := i }) hunion

end EntryMeta

namespace Ledger

variable {κ : Type} [DecidableEq κ]

/-! ## Records -/

theorem metaOf_congr {l l' : Ledger κ} {t : Target κ} (h : l'.meta? t = l.meta? t) :
    l'.metaOf t = l.metaOf t := by
  unfold metaOf
  rw [h]

theorem metaOf_settle (l : Ledger κ) (t : Target κ) : l.settle.metaOf t = l.metaOf t :=
  metaOf_congr (meta?_settle l t)

theorem metaOf_setMeta (l : Ledger κ) (t u : Target κ) (m : EntryMeta) :
    (l.setMeta t m).metaOf u = if t = u then m else l.metaOf u := by
  unfold metaOf
  rw [meta?_setMeta]
  split <;> rfl

theorem metaOf_markOutdated (l : Ledger κ) (t u : Target κ) (seq : Nat) :
    (l.markOutdated t seq).metaOf u
      = if t = u then { l.metaOf u with outdated := true } else l.metaOf u := by
  unfold metaOf
  rw [meta?_markOutdated]
  split
  · cases l.meta? u <;> rfl
  · rfl

theorem metaOf_markAllOutdated (l : Ledger κ) (seq : Nat) (u : Target κ) :
    (l.markAllOutdated seq).metaOf u = { l.metaOf u with outdated := true } := by
  unfold metaOf
  rw [meta?_markAllOutdated]
  cases l.meta? u <;> rfl

theorem metaOf_forget (l : Ledger κ) (k : κ) (u : Target κ) :
    (l.forget k).metaOf u = if Target.key k = u then (l.metaOf u).onlyLoading else l.metaOf u := by
  unfold metaOf
  rw [meta?_forget]
  split
  · cases l.meta? u with
    | none => rfl
    | some m =>
        cases hm : m.isLoading with
        | true => simp [hm]
        | false =>
            -- without loads the record is as good as none
            have hzero : m.loading = 0 := by simpa [EntryMeta.isLoading] using hm
            simp [hm, EntryMeta.onlyLoading, hzero]
  · rfl

theorem metaOf_forgetAll (l : Ledger κ) (u : Target κ) :
    ∃ n, l.forgetAll.metaOf u = { loading := n } := by
  unfold metaOf
  rw [meta?_forgetAll]
  cases (l.metas.filterValues EntryMeta.isLoading).get? u with
  | none => exact ⟨0, rfl⟩
  | some m => exact ⟨m.loading, rfl⟩

theorem metaOf_markLoadedBy (l : Ledger κ) (t u : Target κ) (inc : Includes) (now : Instant)
    (seq : Nat) :
    (l.markLoadedBy t inc now seq).metaOf u
      = if t = u ∧ l.isInvalidated u seq = false then (l.metaOf u).afterLoad inc now
        else l.metaOf u := by
  unfold markLoadedBy
  by_cases htu : t = u
  · subst htu
    cases l.isInvalidated t seq with
    | true => simp
    | false => simp [markLoaded, metaOf_setMeta]
  · split <;> simp [htu, markLoaded, metaOf_setMeta]

/-- The end of a load counts one load less and leaves all else. -/
theorem SameRecord.metaOf {l l' : Ledger κ} {t : Target κ} (h : l.SameRecord l' t) :
    l'.metaOf t = { l.metaOf t with loading := (l'.metaOf t).loading } := by
  have heq := h.1
  unfold Ledger.metaOf
  cases hm : l.meta? t with
  | none =>
      rw [hm] at heq
      rw [Option.map_eq_none_iff.1 heq]
  | some m =>
      rw [hm] at heq
      obtain ⟨m', hm', hrest⟩ := Option.map_eq_some_iff.1 heq
      rw [hm']
      cases m
      cases m'
      simpa [EntryMeta.atRest] using hrest

end Ledger

namespace Cache

variable {κ ν : Type} [EntryKey κ]

/-- What the cache keeps of a key. -/
def stock (c : Cache κ ν) (k : κ) : Stock ν := ⟨c.ledger.metaOf (.key k), c.data.get? k⟩

/-! ## Marking -/

/-- A load marks what it answers for unless it was invalidated since. -/
theorem metaOf_markAnswered (ts : List (Target κ)) (inc : Includes) (now : Instant) (seq : Nat)
    (l : Ledger κ) (t : Target κ) :
    (markAnswered ts inc now seq l).metaOf t
      = if t ∈ ts ∧ l.isInvalidated t seq = false then (l.metaOf t).afterLoad inc now
        else l.metaOf t := by
  induction ts generalizing l with
  | nil => simp [markAnswered]
  | cons u ts ih =>
      have hbooks := Ledger.sameBooks_markLoadedBy l u inc now seq
      rw [markAnswered_cons, ih, hbooks.isInvalidated, Ledger.metaOf_markLoadedBy]
      cases l.isInvalidated t seq with
      | true => simp
      | false =>
          by_cases hut : u = t
          · by_cases hts : t ∈ ts <;> simp [hut, hts, EntryMeta.afterLoad_afterLoad]
          · simp [hut, Ne.symm hut]

/-- A load marks what it brings unless it was invalidated since. -/
theorem metaOf_writeLoaded (p : Policy κ ν) (now : Instant) (inc : Includes) (seq : Nat)
    (entries : List (κ × ν)) (c : Cache κ ν) (j : κ) :
    (writeLoaded p now inc seq entries c).cache.ledger.metaOf (.key j)
      = if j ∈ (writeLoaded p now inc seq entries c).keys
            ∧ c.ledger.isInvalidated (.key j) seq = false
        then (c.ledger.metaOf (.key j)).afterLoad inc now else c.ledger.metaOf (.key j) := by
  fun_induction writeLoaded p now inc seq entries c with
  | case1 c => simp
  | case2 k v rest c hk ih => exact ih
  | case3 k v rest c hk hw => simp
  | case4 k v rest c hk c' hw w ih =>
      obtain ⟨merged, _, rfl⟩ := eq_of_write? hw
      have hstamp := stamps_stamp_markLoadedBy c.ledger k inc now seq
      have hinv : ∀ t, ((c.ledger.stamp k seq).markLoadedBy (.key k) inc now seq).isInvalidated t seq
          = c.ledger.isInvalidated t seq := hstamp.isInvalidated_of_le (Nat.le_refl seq)
      have hinv' : ∀ t, (c.ledger.stamp k seq).isInvalidated t seq = c.ledger.isInvalidated t seq :=
        (Ledger.stamps_stamp c.ledger k seq).isInvalidated_of_le (Nat.le_refl seq)
      refine ih.trans ?_
      simp only [withLedger, hinv, Ledger.metaOf_markLoadedBy, hinv', List.mem_cons]
      show (if j ∈ w.keys ∧ _ then _ else _) = _
      have hsame : (c.ledger.stamp k seq).metaOf (.key j) = c.ledger.metaOf (.key j) := rfl
      rw [hsame]
      cases c.ledger.isInvalidated (.key j) seq with
      | true => simp
      | false =>
          by_cases hkj : k = j
          · by_cases hw : j ∈ w.keys <;> simp [hkj, hw, EntryMeta.afterLoad_afterLoad]
          · simp [hkj, Ne.symm hkj]

/-! ## The steps, seen from one key -/

theorem stock_settle (c : Cache κ ν) (k : κ) : c.settle.stock k = c.stock k := by
  show (⟨c.ledger.settle.metaOf (.key k), c.data.get? k⟩ : Stock ν) = _
  rw [Ledger.metaOf_settle]
  rfl

theorem stock_setMany (c : Cache κ ν) (p : Policy κ ν) (now : Instant) (entries : List (κ × ν))
    (k : κ) :
    (c.setMany p now entries).cache.stock k
      = (writeLocally p now (c.ledger.seq + 1) entries c.draw).1.stock k := by
  rw [setMany_eq]
  rcases writeLocally p now (c.ledger.seq + 1) entries c.draw with ⟨c', _ | _⟩
  · rfl
  · exact stock_settle c' k

theorem stock_replace (c : Cache κ ν) (p : Policy κ ν) (now : Instant) (entries : List (κ × ν))
    (k : κ) :
    (c.replace p now entries).cache.stock k
      = (writeLocally p now (c.ledger.seq + 1) entries (c.replaceBase entries)).1.stock k := by
  rw [replace_eq]
  rcases writeLocally p now (c.ledger.seq + 1) entries (c.replaceBase entries) with ⟨c', _ | _⟩
  · rfl
  · refine (stock_settle _ k).trans ?_
    show (⟨(c'.ledger.setMeta (.named Alias.all) _).metaOf (.key k), c'.data.get? k⟩ : Stock ν) = _
    rw [Ledger.metaOf_setMeta, if_neg Target.named_ne_key]
    rfl

theorem stock_delete (c : Cache κ ν) (key : Key κ) (k : κ) :
    (c.delete key).cache.stock k
      = (c.draw.removeAll (c.resolve key) (c.ledger.seq + 1)).stock k := by
  rw [← removeEach_fst]
  exact stock_settle _ k

theorem stock_purge {c : Cache κ ν} {tracked : List (Key κ)} {cutoff : Instant}
    (he : c.expired tracked cutoff ≠ []) (k : κ) :
    (c.purge tracked cutoff).cache.stock k
      = (c.draw.removeAll (c.expired tracked cutoff) (c.ledger.seq + 1)).stock k := by
  rw [cache_purge he, stock_settle]
  show (⟨(Ledger.markOutdated _ (.named Alias.all) _).metaOf (.key k), _⟩ : Stock ν) = _
  rw [Ledger.metaOf_markOutdated, if_neg Target.named_ne_key]
  rfl

/-! ## The pieces of a step -/

section

variable {I : Stock ν → Prop} {k : κ}

theorem stock_removeAll (hremove : ∀ s n, I s → I ⟨{ loading := n }, none⟩) (ks : List κ) (seq : Nat)
    {c : Cache κ ν} (h : I (c.stock k)) : I ((c.removeAll ks seq).stock k) := by
  induction ks generalizing c with
  | nil => exact h
  | cons j ks ih =>
      rw [removeAll_cons]
      refine ih ?_
      by_cases hjk : j = k
      · subst hjk
        have hgone : (c.remove j seq).stock j
            = ⟨{ loading := (c.ledger.metaOf (.key j)).loading }, none⟩ := by
          show (⟨(c.ledger.forget j).metaOf _, (c.data.erase j).get? j⟩ : Stock ν) = _
          rw [Ledger.metaOf_forget, if_pos rfl, Shelf.get?_erase, if_pos rfl]
          rfl
        rw [hgone]
        exact hremove _ _ h
      · have hsame : (c.remove j seq).stock k = c.stock k := by
          show (⟨(c.ledger.forget j).metaOf _, (c.data.erase j).get? k⟩ : Stock ν) = _
          rw [Ledger.metaOf_forget, if_neg (by simpa using hjk), Shelf.get?_erase, if_neg hjk]
          rfl
        rw [hsame]
        exact h

theorem stock_writeLocally {p : Policy κ ν} {now : Instant} {seq : Nat} {entries : List (κ × ν)}
    {c : Cache κ ν}
    (hwrite : ∀ v, (k, v) ∈ entries → ∀ s merged, p.merge s.value v = some merged → I s →
      I ⟨s.record.afterWrite now, some merged⟩)
    (h : I (c.stock k)) : I ((writeLocally p now seq entries c).1.stock k) := by
  fun_induction writeLocally p now seq entries c with
  | case1 c => exact h
  | case2 j v rest c hw => exact h
  | case3 j v rest c c' hw ih =>
      obtain ⟨merged, hm, rfl⟩ := eq_of_write? hw
      refine ih (fun v' hv' => hwrite v' (List.mem_cons_of_mem _ hv')) ?_
      by_cases hjk : j = k
      · subst hjk
        have hnow := hwrite v List.mem_cons_self (c.stock j) merged hm h
        show I ⟨((c.ledger.stamp j seq).markWritten (.key j) now).metaOf (.key j),
          (c.data.insert j merged).get? j⟩
        rw [Ledger.markWritten, Ledger.metaOf_setMeta, if_pos rfl, Shelf.get?_insert, if_pos rfl]
        exact hnow
      · show I ⟨((c.ledger.stamp j seq).markWritten (.key j) now).metaOf (.key k),
          (c.data.insert j merged).get? k⟩
        rw [Ledger.markWritten, Ledger.metaOf_setMeta, if_neg (by simpa using hjk), Shelf.get?_insert,
          if_neg hjk]
        exact h

theorem stock_writeLoaded {p : Policy κ ν} {now : Instant} {inc : Includes} {seq : Nat}
    {entries : List (κ × ν)} {c : Cache κ ν}
    (hbring : ∀ v, (k, v) ∈ entries → ∀ s merged, p.merge s.value v = some merged → I s →
      I ⟨if c.ledger.isInvalidated (.key k) seq then s.record else s.record.afterLoad inc now,
        some merged⟩)
    (h : I (c.stock k)) : I ((writeLoaded p now inc seq entries c).cache.stock k) := by
  fun_induction writeLoaded p now inc seq entries c with
  | case1 c => exact h
  | case2 j v rest c hj ih => exact ih (fun v' hv' => hbring v' (List.mem_cons_of_mem _ hv')) h
  | case3 j v rest c hj hw => exact h
  | case4 j v rest c hj c' hw w ih =>
      obtain ⟨merged, hm, rfl⟩ := eq_of_write? hw
      have hinv := (stamps_stamp_markLoadedBy c.ledger j inc now seq).isInvalidated_of_le
        (Nat.le_refl seq) (.key k)
      refine ih (fun v' hv' s merged' hm' hs => ?_) ?_
      · show I ⟨if ((c.ledger.stamp j seq).markLoadedBy _ inc now seq).isInvalidated _ seq = true
          then _ else _, _⟩
        rw [hinv]
        exact hbring v' (List.mem_cons_of_mem _ hv') s merged' hm' hs
      · show I ⟨((c.ledger.stamp j seq).markLoadedBy (.key j) inc now seq).metaOf (.key k),
          (c.data.insert j merged).get? k⟩
        have hinv' := (Ledger.stamps_stamp c.ledger j seq).isInvalidated_of_le (Nat.le_refl seq) (.key k)
        rw [Ledger.metaOf_markLoadedBy, Shelf.get?_insert, hinv']
        by_cases hjk : j = k
        · subst hjk
          have hnow := hbring v List.mem_cons_self (c.stock j) merged hm h
          rw [if_pos rfl]
          cases hi : c.ledger.isInvalidated (.key j) seq with
          | true =>
              rw [hi, if_pos rfl] at hnow
              rw [if_neg fun hcase => Bool.noConfusion hcase.2]
              exact hnow
          | false =>
              rw [hi, if_neg Bool.false_ne_true] at hnow
              rw [if_pos ⟨rfl, rfl⟩]
              exact hnow
        · rw [if_neg (by simp [hjk]), if_neg hjk]
          exact h

/-- Changes of records that keep what holds of the key's record, in a row. -/
theorem stock_foldl {α : Type} {f : Ledger κ → α → Ledger κ} {value : Option ν}
    (hf : ∀ l a, I ⟨l.metaOf (.key k), value⟩ → I ⟨(f l a).metaOf (.key k), value⟩) (as : List α)
    {l : Ledger κ} (h : I ⟨l.metaOf (.key k), value⟩) :
    I ⟨(as.foldl f l).metaOf (.key k), value⟩ := by
  induction as generalizing l with
  | nil => exact h
  | cons a as ih => exact ih (hf l a h)

theorem stock_beginAt {value : Option ν}
    (hnote : ∀ s n f, I s → I ⟨{ s.record with loading := n, failure := f }, s.value⟩) (l : Ledger κ)
    (t : Target κ) (h : I ⟨l.metaOf (.key k), value⟩) :
    I ⟨(l.beginAt t).metaOf (.key k), value⟩ := by
  show I ⟨(l.setMeta t _).metaOf (.key k), value⟩
  rw [Ledger.metaOf_setMeta]
  split
  · rename_i heq
    rw [heq]
    exact hnote _ _ none h
  · exact h

theorem stock_markFailed {value : Option ν}
    (hnote : ∀ s n f, I s → I ⟨{ s.record with loading := n, failure := f }, s.value⟩) (f : Failure)
    (l : Ledger κ) (t : Target κ) (h : I ⟨l.metaOf (.key k), value⟩) :
    I ⟨(l.markFailed t f).metaOf (.key k), value⟩ := by
  unfold Ledger.markFailed
  rw [Ledger.metaOf_setMeta]
  split
  · rename_i heq
    rw [heq]
    exact hnote _ _ (some f) h
  · exact h

theorem stock_markFailures {value : Option ν}
    (hnote : ∀ s n f, I s → I ⟨{ s.record with loading := n, failure := f }, s.value⟩) (f : Failure)
    (sig : Signature κ) (seq : Nat) {l : Ledger κ} (h : I ⟨l.metaOf (.key k), value⟩) :
    I ⟨(markFailures f sig seq l).metaOf (.key k), value⟩ := by
  rw [markFailures_eq]
  refine stock_foldl (fun l t => stock_markFailed hnote f l t) _ ?_
  refine stock_foldl (fun l j hl => ?_) _ h
  unfold markFailedUnless
  split
  · exact hl
  · exact stock_markFailed hnote f l _ hl

theorem stock_finished
    (hnote : ∀ s n f, I s → I ⟨{ s.record with loading := n, failure := f }, s.value⟩)
    (load : PendingLoad κ) {c : Cache κ ν} (h : I (c.stock k)) : I ((c.finished load).stock k) := by
  show I ⟨(c.ledger.finishLoad load.signature load.seq load.targets).metaOf (.key k), _⟩
  rw [(Ledger.sameRecord_finishLoad c.ledger _ _ _ _).metaOf]
  exact hnote (c.stock k) _ _ h

theorem stock_markEach {value : Option ν}
    (houtdate : ∀ s, I s → I ⟨{ s.record with outdated := true }, s.value⟩) (seq : Nat) (ks : List κ)
    {l : Ledger κ} (h : I ⟨l.metaOf (.key k), value⟩) :
    I ⟨(markEach seq ks l).1.metaOf (.key k), value⟩ := by
  induction ks generalizing l with
  | nil => exact h
  | cons j ks ih =>
      refine ih ?_
      rw [Ledger.metaOf_markOutdated]
      split
      · exact houtdate _ h
      · exact h

end

end Cache

namespace Busy

variable {κ ν : Type} [EntryKey κ]

/-! ## What a step can do to a key -/

/-- The step commits the load, which has brought the entries. -/
def Brings (b : Busy κ ν) (load : PendingLoad κ) (now : Instant) (entries : List (κ × ν))
    (op : Op κ ν) : Prop :=
  op = .commit load.seq now (.ok entries) ∧ b.pending? load.seq = some load

/-- What a step can do to what is kept of a key, at one time. -/
inductive Handles (b : Busy κ ν) (op : Op κ ν) (k : κ) : Stock ν → Stock ν → Prop where
  /-- It notes how many loads run and how the last one failed. -/
  | notes (s : Stock ν) (loading : Nat) (failure : Option Failure) :
      Handles b op k s ⟨{ s.record with loading := loading, failure := failure }, s.value⟩
  /-- It outdates the record. -/
  | outdates (s : Stock ν) : Handles b op k s ⟨{ s.record with outdated := true }, s.value⟩
  /-- It removes the value, and of the record only the loads that run are left. -/
  | removes (s : Stock ν) (loading : Nat) : Handles b op k s ⟨{ loading := loading }, none⟩
  /-- It writes a value locally. -/
  | writes (s : Stock ν) {now : Instant} {entries : List (κ × ν)} {v merged : ν}
      (hop : op = .setMany now entries ∨ op = .replace now entries) (hv : (k, v) ∈ entries)
      (hm : b.policy.merge s.value v = some merged) :
      Handles b op k s ⟨s.record.afterWrite now, some merged⟩
  /-- It changes the value in place. -/
  | changes (s : Stock ν) {f : ν → ν} {v : ν} (hop : op = .update k f) (hv : s.value = some v) :
      Handles b op k s ⟨s.record, some (f v)⟩
  /-- A load brings a value, and marks the key unless it was invalidated since the load started. -/
  | brings (s : Stock ν) {load : PendingLoad κ} {now : Instant} {entries : List (κ × ν)}
      {v merged : ν} (hop : b.Brings load now entries op) (hv : (k, v) ∈ entries)
      (hm : b.policy.merge s.value v = some merged) :
      Handles b op k s ⟨if b.ledger.isInvalidated (.key k) load.seq then s.record
        else s.record.afterLoad load.signature.includes now, some merged⟩
  /-- A load that was asked for the key brings nothing for it and marks it all the same. -/
  | marks (s : Stock ν) {load : PendingLoad κ} {now : Instant} {entries : List (κ × ν)}
      (hop : b.Brings load now entries op) (hk : k ∈ load.signature.key.explicit)
      (hnot : k ∉ entries.map Prod.fst) (hi : b.ledger.isInvalidated (.key k) load.seq = false) :
      Handles b op k s ⟨s.record.afterLoad load.signature.includes now, s.value⟩

section

variable {b : Busy κ ν} {op : Op κ ν} {k : κ} {I : Stock ν → Prop}

/-- The commit of a load that succeeded. -/
theorem stock_commit_ok {load : PendingLoad κ} {now : Instant} {entries : List (κ × ν)}
    (hmove : ∀ {s s'}, b.Handles op k s s' → I s → I s') (hop : b.Brings load now entries op)
    (h : I (b.cache.stock k)) :
    I ((b.cache.commit b.name b.policy now load (.ok entries)).cache.stock k) := by
  have hbase : I (((b.cache.finished load).removeAll (b.cache.commitDrops load entries)
      load.seq).stock k) :=
    Cache.stock_removeAll (fun s n => hmove (.removes s n)) _ _
      (Cache.stock_finished (fun s n f => hmove (.notes s n f)) load h)
  have hinv := Cache.isInvalidated_commitBase b.cache load entries
  have hwritten : I ((b.cache.commitWrites b.policy now load entries).cache.stock k) := by
    refine Cache.stock_writeLoaded (fun v hv s merged hm hs => ?_) hbase
    rw [hinv]
    exact hmove (.brings s hop hv hm) hs
  have hdata := Cache.data_commit_ok b.cache b.name b.policy now load entries
  unfold Cache.stock
  rw [hdata]
  rcases Cache.ledger_commit_ok b.cache b.name b.policy now load entries with
    ⟨_, hl⟩ | ⟨hcomplete, hl⟩
  · rw [hl]
    exact hwritten
  · rw [hl, Ledger.metaOf_settle, Cache.metaOf_markAnswered]
    rw [Cache.isInvalidated_commitWrites]
    split
    · rename_i hcase
      by_cases hmem : k ∈ entries.map Prod.fst
      · -- what the load has brought is marked already
        have hsup : b.ledger.isSuperseded k load.seq = false :=
          Bool.eq_false_iff.2 (mt Ledger.isInvalidated_of_isSuperseded (Bool.eq_false_iff.1 hcase.2))
        have hkey := (Cache.mem_commitWrites hcomplete).2 ⟨hmem, hsup⟩
        have hmarked := (Cache.metaOf_writeLoaded b.policy now load.signature.includes load.seq entries
          ((b.cache.finished load).removeAll (b.cache.commitDrops load entries) load.seq) k).trans
            (if_pos ⟨hkey, (hinv _).trans hcase.2⟩)
        have htwice : ((b.cache.commitWrites b.policy now load entries).cache.ledger.metaOf
            (.key k)).afterLoad load.signature.includes now
              = (b.cache.commitWrites b.policy now load entries).cache.ledger.metaOf (.key k) := by
          unfold Cache.commitWrites
          rw [hmarked, EntryMeta.afterLoad_afterLoad]
        rw [htwice]
        exact hwritten
      · exact hmove (.marks _ hop (Key.key_mem_requested.1 hcase.1) hmem hcase.2) hwritten
    · exact hwritten

theorem stock_commit (hmove : ∀ {s s'}, b.Handles op k s s' → I s → I s') {seq : Nat} {now : Instant}
    {answer : Except Cause (List (κ × ν))} (hop : op = .commit seq now answer)
    (h : I (b.cache.stock k)) : I ((b.step op).cache.stock k) := by
  subst hop
  cases hp : b.pending? seq with
  | none => rw [step_commit_of_none hp]; exact h
  | some load =>
      obtain ⟨_, rfl⟩ := pending?_spec hp
      rw [step_commit_of_some hp]
      cases answer with
      | ok entries => exact stock_commit_ok hmove ⟨rfl, hp⟩ h
      | error cause =>
          have hnote : ∀ s n f, I s → I ⟨{ s.record with loading := n, failure := f }, s.value⟩ :=
            fun s n f => hmove (.notes s n f)
          show I ⟨(Cache.markFailures _ load.signature load.seq
            (b.cache.finished load).ledger).settle.metaOf (.key k), _⟩
          rw [Ledger.metaOf_settle]
          exact Cache.stock_markFailures hnote _ _ _ (Cache.stock_finished hnote load h)

/-- **What holds of a key and stays true through all that a step can do to it holds after the step.** -/
theorem stock_step (hmove : ∀ {s s'}, b.Handles op k s s' → I s → I s') (h : I (b.cache.stock k)) :
    I ((b.step op).cache.stock k) := by
  have hremove : ∀ s n, I s → I ⟨{ loading := n }, none⟩ := fun s n => hmove (.removes s n)
  have hnote : ∀ s n f, I s → I ⟨{ s.record with loading := n, failure := f }, s.value⟩ :=
    fun s n f => hmove (.notes s n f)
  have houtdate : ∀ s, I s → I ⟨{ s.record with outdated := true }, s.value⟩ :=
    fun s => hmove (.outdates s)
  cases hop : op with
  | setMany now entries =>
      show I ((b.cache.setMany b.policy now entries).cache.stock k)
      rw [Cache.stock_setMany]
      exact Cache.stock_writeLocally (fun v hv s merged hm => hmove (.writes s (.inl hop) hv hm)) h
  | replace now entries =>
      show I ((b.cache.replace b.policy now entries).cache.stock k)
      rw [Cache.stock_replace]
      refine Cache.stock_writeLocally (fun v hv s merged hm => hmove (.writes s (.inr hop) hv hm)) ?_
      exact Cache.stock_removeAll hremove _ _ h
  | update j f =>
      show I ((b.cache.update j f).cache.stock k)
      cases hj : b.cache.data.get? j with
      | none => rw [Cache.update_of_none hj]; exact h
      | some v =>
          show I ⟨(b.cache.update j f).cache.ledger.metaOf _, (b.cache.update j f).cache.data.get? k⟩
          rw [Cache.ledger_update hj, Ledger.metaOf_settle, Cache.data_update hj, Shelf.get?_insert]
          by_cases hjk : j = k
          · subst hjk
            rw [if_pos rfl]
            exact hmove (.changes (b.cache.stock j) hop hj) h
          · rw [if_neg hjk]
            exact h
  | delete key =>
      show I ((b.cache.delete key).cache.stock k)
      rw [Cache.stock_delete]
      exact Cache.stock_removeAll hremove _ _ h
  | clear =>
      show I ⟨((b.ledger.draw.stampClear _).forgetAll.settle).metaOf (.key k), none⟩
      obtain ⟨n, hn⟩ := Ledger.metaOf_forgetAll (b.ledger.draw.stampClear (b.ledger.seq + 1)) (.key k)
      rw [Ledger.metaOf_settle]
      exact hn ▸ hremove (b.cache.stock k) n h
  | markOutdated key =>
      show I ⟨(Cache.markEach _ _ (Cache.markAlias b.ledger.draw key _)).1.settle.metaOf (.key k), _⟩
      rw [Ledger.metaOf_settle]
      refine Cache.stock_markEach houtdate _ _ ?_
      unfold Cache.markAlias
      split
      · rw [Ledger.metaOf_markOutdated, if_neg Target.named_ne_key]
        exact h
      · exact h
  | markAllOutdated =>
      show I ⟨(b.ledger.draw.markAllOutdated _).settle.metaOf (.key k), _⟩
      rw [Ledger.metaOf_settle, Ledger.metaOf_markAllOutdated]
      exact houtdate _ h
  | purge tracked cutoff =>
      show I ((b.cache.purge tracked cutoff).cache.stock k)
      by_cases he : b.cache.expired tracked cutoff = []
      · rw [Cache.purge_of_nil he]; exact h
      · rw [Cache.stock_purge he]
        exact Cache.stock_removeAll hremove _ _ h
  | register name r => exact h
  | start key inc force =>
      show I ((b.cache.start b.name b.policy key inc force).cache.stock k)
      rcases b.cache.start_cases b.name b.policy key inc force with ⟨hcache, _⟩ | ⟨_, hstart⟩
      · rw [hcache]; exact h
      · rw [hstart]
        exact Cache.stock_foldl (fun l t => Cache.stock_beginAt hnote l t) _ h
  | commit seq now answer => exact hop ▸ stock_commit hmove hop h
  | abort seq =>
      cases hl : b.loose? seq with
      | none => rw [step_abort_of_none hl]; exact h
      | some load =>
          rw [step_abort_of_some hl]
          show I (((b.cache.finished load).settle).stock k)
          rw [Cache.stock_settle]
          exact Cache.stock_finished hnote load h

end

end Busy

end Larder
