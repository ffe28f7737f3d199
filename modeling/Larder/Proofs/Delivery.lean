import Larder.Proofs.Commit
import Larder.Proofs.Entries
import Larder.Proofs.Outcome

/-!
# What a commit writes

An answer is a list of entries in any order. It may name a key more than once, and keys that nobody asked
for. Seen at one key, the commit is simple: a key that was touched since the load started keeps its value,
and any other is merged with the values that the answer has for it, from the first to the last. The
stamps that the commit sets on its way bear the number of the load, so they never keep it from a later
entry for the same key.

A merge may break down. Then the commit breaks off: what is before the entry is written, the entry and
all after it are not, and nobody is told. `Cache.Reaches` says how far a commit comes.

A requested key that the answer lacks is recorded as loaded and otherwise left alone. If it was cached,
it stays cached.
-/

namespace Larder

/-- What a key holds after some values were merged into it one after the other, if no merge broke
down. -/
def Policy.combine {κ ν : Type} (p : Policy κ ν) (held : Option ν) (values : List ν) :
    Option (Option ν) :=
  values.foldlM (fun held v => (p.merge held v).map some) held

theorem Policy.combine_cons {κ ν : Type} {p : Policy κ ν} {held : Option ν} {v merged : ν}
    (h : p.merge held v = some merged) (values : List ν) :
    p.combine held (v :: values) = p.combine (some merged) values := by
  unfold combine
  rw [List.foldlM_cons, h]
  rfl

/-- The values that some entries have for a key, in order. -/
def valuesOf {κ ν : Type} [DecidableEq κ] (k : κ) (entries : List (κ × ν)) : List ν :=
  (entries.filter fun e => e.1 = k).map Prod.snd

section

variable {κ ν : Type} [DecidableEq κ]

theorem valuesOf_cons_self (k : κ) (v : ν) (entries : List (κ × ν)) :
    valuesOf k ((k, v) :: entries) = v :: valuesOf k entries := by
  unfold valuesOf
  rw [List.filter_cons_of_pos (by simp), List.map_cons]

theorem valuesOf_cons_of_ne {j k : κ} (h : ¬ j = k) (v : ν) (entries : List (κ × ν)) :
    valuesOf k ((j, v) :: entries) = valuesOf k entries := by
  unfold valuesOf
  rw [List.filter_cons_of_neg (by simpa using h)]

end

namespace Cache

variable {κ ν : Type} [EntryKey κ]

/-! ## How far the entries are written -/

/-- Of the entries of a load, those of `reached` were written or passed over, and the first of `rest`
broke the writing off. -/
structure Reaches (p : Policy κ ν) (seq : Nat) (c : Cache κ ν) (w : Written κ ν)
    (entries reached rest : List (κ × ν)) : Prop where
  /-- Entries are taken in order. -/
  split : entries = reached ++ rest
  /-- The writing is complete if nothing is left. -/
  complete : w.complete = true ↔ rest = []
  /-- The keys written are those that are not passed over. -/
  keys : w.keys = (reached.map Prod.fst).filter fun k => !c.ledger.isSuperseded k seq
  /-- A key that is not passed over holds what its values come to. -/
  data : ∀ k, c.ledger.isSuperseded k seq = false →
    p.combine (c.data.get? k) (valuesOf k reached) = some (w.cache.data.get? k)
  /-- The merge of the first entry that is left broke down. -/
  stuck : ∀ k v more, rest = (k, v) :: more →
    c.ledger.isSuperseded k seq = false ∧ p.merge (w.cache.data.get? k) v = none

variable {p : Policy κ ν} {seq : Nat} {c : Cache κ ν} {w : Written κ ν}
  {entries reached rest : List (κ × ν)}

theorem Reaches.nil (p : Policy κ ν) (seq : Nat) (c : Cache κ ν) :
    Reaches p seq c ⟨c, [], true⟩ [] [] [] where
  split := rfl
  complete := by simp
  keys := rfl
  data _ _ := rfl
  stuck _ _ _ h := by cases h

theorem Reaches.passed {k : κ} (hk : c.ledger.isSuperseded k seq = true) (v : ν)
    (h : Reaches p seq c w entries reached rest) :
    Reaches p seq c w ((k, v) :: entries) ((k, v) :: reached) rest where
  split := by rw [h.split, List.cons_append]
  complete := h.complete
  keys := by
    rw [h.keys, List.map_cons, List.filter_cons_of_neg]
    rw [hk]
    exact Bool.false_ne_true
  data j hj := by
    have hne : ¬ k = j := by
      rintro rfl
      rw [hk] at hj
      cases hj
    rw [valuesOf_cons_of_ne hne]
    exact h.data j hj
  stuck := h.stuck

theorem Reaches.broken {k : κ} (hk : c.ledger.isSuperseded k seq = false) {v : ν}
    (hv : p.merge (c.data.get? k) v = none) (entries : List (κ × ν)) :
    Reaches p seq c ⟨c, [], false⟩ ((k, v) :: entries) [] ((k, v) :: entries) where
  split := rfl
  complete := by simp
  keys := rfl
  data _ _ := rfl
  stuck j u more heq := by
    cases heq
    exact ⟨hk, hv⟩

theorem Reaches.written {k : κ} (hk : c.ledger.isSuperseded k seq = false) {v merged : ν}
    (hv : p.merge (c.data.get? k) v = some merged) {c' : Cache κ ν}
    (hdata : c'.data = c.data.insert k merged)
    (hsame : ∀ j, c'.ledger.isSuperseded j seq = c.ledger.isSuperseded j seq)
    (h : Reaches p seq c' w entries reached rest) :
    Reaches p seq c { w with keys := k :: w.keys } ((k, v) :: entries) ((k, v) :: reached) rest where
  split := by rw [h.split, List.cons_append]
  complete := h.complete
  keys := by
    show k :: w.keys = _
    rw [h.keys, List.map_cons, List.filter_cons_of_pos (by rw [hk]; rfl)]
    simp only [hsame]
  data j hj := by
    have hrest := h.data j ((hsame j).trans hj)
    rw [hdata, Shelf.get?_insert] at hrest
    by_cases hkj : k = j
    · subst hkj
      rw [if_pos rfl] at hrest
      rw [valuesOf_cons_self, Policy.combine_cons hv]
      exact hrest
    · rw [if_neg hkj] at hrest
      rw [valuesOf_cons_of_ne hkj]
      exact hrest
  stuck j u more heq := by
    obtain ⟨hj, hu⟩ := h.stuck j u more heq
    exact ⟨(hsame j).symm.trans hj, hu⟩

/-- Writing the entries of a load comes to their end, or to one whose merge breaks down. -/
theorem exists_reaches (p : Policy κ ν) (now : Instant) (inc : Includes) (seq : Nat)
    (entries : List (κ × ν)) (c : Cache κ ν) :
    ∃ reached rest, Reaches p seq c (writeLoaded p now inc seq entries c) entries reached rest := by
  fun_induction writeLoaded p now inc seq entries c with
  | case1 c => exact ⟨[], [], .nil p seq c⟩
  | case2 k v entries c hk ih =>
      obtain ⟨reached, rest, h⟩ := ih
      exact ⟨(k, v) :: reached, rest, h.passed hk v⟩
  | case3 k v entries c hk hw =>
      have hmerge := Option.map_eq_none_iff.1 hw
      exact ⟨[], (k, v) :: entries, .broken (Bool.eq_false_iff.2 hk) hmerge entries⟩
  | case4 k v entries c hk c' hw w ih =>
      obtain ⟨reached, rest, h⟩ := ih
      obtain ⟨merged, hmerge, rfl⟩ := eq_of_write? hw
      -- the stamp just set bears the load's own number and does not count for it
      have hstamp := stamps_stamp_markLoadedBy c.ledger k inc now seq
      exact ⟨(k, v) :: reached, rest, h.written (Bool.eq_false_iff.2 hk) hmerge rfl
        (hstamp.isSuperseded_of_le (Nat.le_refl seq))⟩

/-! ## The commit of a load -/

section

variable {load : PendingLoad κ} {now : Instant} {k : κ}

/-- How far the commit of a load comes with its entries. -/
abbrev CommitReaches (c : Cache κ ν) (p : Policy κ ν) (now : Instant) (load : PendingLoad κ)
    (entries reached rest : List (κ × ν)) : Prop :=
  Reaches p load.seq (c.commitBase load entries) (c.commitWrites p now load entries) entries reached
    rest

theorem exists_commitReaches (c : Cache κ ν) (p : Policy κ ν) (now : Instant) (load : PendingLoad κ)
    (entries : List (κ × ν)) : ∃ reached rest, c.CommitReaches p now load entries reached rest :=
  exists_reaches p now load.signature.includes load.seq entries _

/-- A key of the answer is as it was when its first value comes. -/
theorem data_commitBase (c : Cache κ ν) (load : PendingLoad κ) (hk : k ∈ entries.map Prod.fst) :
    (c.commitBase load entries).data.get? k = c.data.get? k := by
  rw [data_removeAll fun h => (mem_commitDrops.1 h).2.2.1 hk]
  rfl

theorem keys_commitWrites (h : c.CommitReaches p now load entries reached rest) :
    (c.commitWrites p now load entries).keys
      = (reached.map Prod.fst).filter fun k => !c.ledger.isSuperseded k load.seq := by
  rw [h.keys]
  simp only [isSuperseded_commitBase]

/-- A key that the commit has reached holds what its values come to. -/
theorem data_commit_of_reached (name : String)
    (h : c.CommitReaches p now load entries reached rest)
    (hs : c.ledger.isSuperseded k load.seq = false) (hk : k ∈ reached.map Prod.fst) :
    p.combine (c.data.get? k) (valuesOf k reached)
      = some ((c.commit name p now load (.ok entries)).cache.data.get? k) := by
  have hmem : k ∈ entries.map Prod.fst := by
    rw [h.split, List.map_append]
    exact List.mem_append_left _ hk
  rw [data_commit_ok, ← data_commitBase c load hmem]
  exact h.data k ((isSuperseded_commitBase c load entries k).trans hs)

/-- A key that it has not reached is as it was, unless everything was asked for and the answer lacks
it. -/
theorem data_commit_of_not_reached (name : String)
    (h : c.CommitReaches p now load entries reached rest)
    (hs : c.ledger.isSuperseded k load.seq = false) (hk : k ∉ reached.map Prod.fst) :
    (c.commit name p now load (.ok entries)).cache.data.get? k
      = if load.signature.key.isAll = true ∧ k ∉ entries.map Prod.fst then none
        else c.data.get? k := by
  by_cases hmem : k ∈ entries.map Prod.fst
  · rw [if_neg fun hdrop => hdrop.2 hmem, data_commit_ok, ← data_commitBase c load hmem]
    refine data_writeLoaded fun hkey => hk ?_
    exact (List.mem_filter.1 ((keys_commitWrites h) ▸ hkey)).1
  · rw [data_commit_of_not_mem name p now hmem hs]
    simp only [hmem, not_false_iff, and_true]

/-- What a successful commit removes is what was cached before it and is not after it. -/
theorem mem_commitDrops_iff (name : String)
    (hc : (c.commitWrites p now load entries).complete = true) :
    k ∈ c.commitDrops load entries ↔ (c.data.get? k).isSome = true
      ∧ ((c.commit name p now load (.ok entries)).cache.data.get? k).isNone = true := by
  rw [mem_commitDrops]
  cases hcached : (c.data.get? k).isSome with
  | false => simp
  | true =>
      cases hs : c.ledger.isSuperseded k load.seq with
      | true =>
          rw [data_commit_of_superseded hs, Option.isNone_eq_false_iff.2 hcached]
          simp
      | false =>
          by_cases hmem : k ∈ entries.map Prod.fst
          · rw [Option.isNone_eq_false_iff.2 (isSome_data_commit name hc hmem hs)]
            simp [hmem]
          · rw [data_commit_of_not_mem name p now hmem hs]
            by_cases hall : load.signature.key.isAll = true
            · simp [hall, hmem]
            · rw [if_neg hall, Option.isNone_eq_false_iff.2 hcached]
              simp [hall]

/-- And it is removed in the order of the cache. -/
theorem commitDrops_eq (name : String) (hc : (c.commitWrites p now load entries).complete = true) :
    c.commitDrops load entries
      = c.data.keys.filter fun k =>
          ((c.commit name p now load (.ok entries)).cache.data.get? k).isNone := by
  have hgone : ∀ k ∈ c.data.keys, k ∈ c.commitDrops load entries ↔
      ((c.commit name p now load (.ok entries)).cache.data.get? k).isNone = true := by
    intro k hk
    exact (mem_commitDrops_iff name hc).trans (and_iff_right (Shelf.mem_keys.1 hk))
  by_cases hall : load.signature.key.isAll = true
  · have hdrops : c.commitDrops load entries
        = (c.finished load).stale (entries.map Prod.fst) load.seq := if_pos hall
    rw [hdrops, stale]
    refine List.filter_congr fun k hk => Bool.eq_iff_iff.2 ?_
    rw [← hgone k hk, hdrops, stale, List.mem_filter]
    exact (and_iff_right hk).symm
  · have hnone : c.commitDrops load entries = [] := if_neg hall
    rw [hnone, eq_comm, List.filter_eq_nil_iff]
    intro k hk hkgone
    have hdrop := (hgone k hk).2 hkgone
    rw [hnone] at hdrop
    exact List.not_mem_nil hdrop

end

end Cache

namespace Busy

variable {κ ν : Type} [EntryKey κ]

theorem complete_of_success {b : Busy κ ν} (hb : Sound b) {load : PendingLoad κ}
    (hload : load ∈ b.pending) {now : Instant} {entries : List (κ × ν)}
    (h : b.succeeds (.commit load.seq now (.ok entries)) = true) :
    (b.cache.commitWrites b.policy now load entries).complete = true := by
  have hrun : (b.run []).succeeds (.commit load.seq now (.ok entries)) = true := h
  obtain ⟨_, _, heq, hcomplete⟩ := complete_of_succeeds hb hload hrun
  cases heq
  exact hcomplete

theorem change_commit_ok {b : Busy κ ν} (hb : Sound b) {load : PendingLoad κ}
    (hload : load ∈ b.pending) (now : Instant) (entries : List (κ × ν)) :
    b.change (.commit load.seq now (.ok entries))
      = (b.cache.commit b.name b.policy now load (.ok entries)).map (.committed load) :=
  change_commit_of_some (hb.pending?_eq hload) now (.ok entries)

theorem breaksOff_commit_ok {b : Busy κ ν} (hb : Sound b) {load : PendingLoad κ}
    (hload : load ∈ b.pending) (now : Instant) (entries : List (κ × ν)) :
    b.breaksOff (.commit load.seq now (.ok entries))
      = !(b.cache.commitWrites b.policy now load entries).complete := by
  unfold breaksOff
  rw [change_commit_ok hb hload, Cache.commit_ok]
  cases (b.cache.commitWrites b.policy now load entries).complete with
  | true => rfl
  | false => rfl

theorem emits_commit_ok {b : Busy κ ν} (hb : Sound b) {load : PendingLoad κ}
    (hload : load ∈ b.pending) (now : Instant) (entries : List (κ × ν)) :
    b.emits (.commit load.seq now (.ok entries))
      = if (b.cache.commitWrites b.policy now load entries).complete then
          (if (b.cache.commitDrops load entries).isEmpty then []
            else [.deleted (b.cache.commitDrops load entries)])
          ++ [.loaded load.signature.key (b.cache.commitWrites b.policy now load entries).keys]
        else [] := by
  unfold emits
  rw [change_commit_ok hb hload, Cache.commit_ok]
  cases (b.cache.commitWrites b.policy now load entries).complete with
  | true => rfl
  | false => rfl

/--
**What a commit writes.**

A load under way is answered with some entries, in any order, with keys as often as they please. The
commit takes them in order, to the end unless a merge breaks down, and breaks off at the entry where one
does. Afterwards a key that was superseded holds what it held. Any other key that was reached holds what
its values come to, merged one after the other into what it held; and one that was not reached is gone
if everything was asked for and the answer lacks it, and else holds what it held. A commit that comes to
the end tells of the keys that are gone and of the entries it has not passed over, in order; one that
breaks off tells nothing.
-/
theorem commit_writes {b : Busy κ ν} (hb : Reachable b) {load : PendingLoad κ}
    (hload : load ∈ b.pending) (now : Instant) (entries : List (κ × ν)) :
    let commit : Op κ ν := .commit load.seq now (.ok entries)
    let before := b.cache.data
    let after := (b.step commit).cache.data
    let superseded := fun k => b.ledger.isSuperseded k load.seq
    let gone := before.keys.filter fun k => (after.get? k).isNone
    ∃ reached rest, entries = reached ++ rest
      ∧ (rest = [] ↔ b.breaksOff commit = false) ∧ (b.policy.Total → rest = [])
      ∧ (∀ k v more, rest = (k, v) :: more →
          superseded k = false ∧ b.policy.merge (after.get? k) v = none)
      ∧ (∀ k, superseded k = true → after.get? k = before.get? k)
      ∧ (∀ k, superseded k = false → k ∈ reached.map Prod.fst →
          b.policy.combine (before.get? k) (valuesOf k reached) = some (after.get? k))
      ∧ (∀ k, superseded k = false → k ∉ reached.map Prod.fst →
          after.get? k = if load.signature.key.isAll = true ∧ k ∉ entries.map Prod.fst then none
            else before.get? k)
      ∧ (rest = [] → b.emits commit = (if gone.isEmpty then [] else [.deleted gone])
          ++ [.loaded load.signature.key ((entries.map Prod.fst).filter fun k => !superseded k)])
      ∧ (¬ rest = [] → b.emits commit = []) := by
  intro commit before after superseded gone
  have hsound := sound_reachable hb
  have hafter : after = (b.cache.commit b.name b.policy now load (.ok entries)).cache.data :=
    congrArg Cache.data (cache_step_commit hsound hload now (.ok entries))
  obtain ⟨reached, rest, h⟩ := b.cache.exists_commitReaches b.policy now load entries
  have hcomplete : (b.cache.commitWrites b.policy now load entries).complete = true ↔ rest = [] :=
    h.complete
  have hemits := emits_commit_ok hsound hload now entries
  refine ⟨reached, rest, h.split, ?_, fun hp => ?_, fun k v more hrest => ?_, fun k hk => ?_,
    fun k hk hreached => ?_, fun k hk hreached => ?_, fun hrest => ?_, fun hrest => ?_⟩
  · rw [← hcomplete, breaksOff_commit_ok hsound hload, Bool.not_eq_false']
  · exact hcomplete.1 (Cache.complete_commitWrites hp)
  · obtain ⟨hs, hv⟩ := h.stuck k v more hrest
    refine ⟨(Cache.isSuperseded_commitBase b.cache load entries k).symm.trans hs, ?_⟩
    rw [hafter, Cache.data_commit_ok]
    exact hv
  · rw [hafter]
    exact Cache.data_commit_of_superseded hk b.name b.policy now (.ok entries)
  · rw [hafter]
    exact Cache.data_commit_of_reached b.name h hk hreached
  · rw [hafter]
    exact Cache.data_commit_of_not_reached b.name h hk hreached
  · have hall : reached = entries := by rw [h.split, hrest, List.append_nil]
    have hgone : b.cache.commitDrops load entries = gone := by
      rw [Cache.commitDrops_eq b.name (hcomplete.2 hrest)]
      simp only [gone, hafter, before]
    rw [hemits, if_pos (hcomplete.2 hrest), hgone, Cache.keys_commitWrites h, hall]
  · rw [hemits, if_neg (mt hcomplete.1 hrest)]

/-- With values that add up: a key that comes twice gets both values, one that was written meanwhile is
passed over, one that the answer lacks is gone and one that nobody had asked for is there. -/
theorem commit_writes_sums :
    let sums : Policy String Nat := { merge := fun held v => some (held.getD 0 + v) }
    let b := (new "entries" sums).run [.setMany ⟨0, 0⟩ [("a", 10), ("d", 1)],
      .start Key.all Includes.none true, .setMany ⟨0, 0⟩ [("c", 5)]]
    let load : PendingLoad String :=
      ⟨⟨Key.all, Includes.none⟩, 2, [.key "a", .key "d", .named Alias.all]⟩
    let entries := [("a", 1), ("c", 9), ("a", 2), ("e", 4)]
    let commit : Op String Nat := .commit load.seq ⟨0, 0⟩ (.ok entries)
    let after := (b.step commit).cache.data
    load ∈ b.pending ∧ after.get? "a" = some 13 ∧ after.get? "c" = some 5 ∧ after.get? "d" = none
      ∧ after.get? "e" = some 4
      ∧ b.emits commit = [.deleted ["d"], .loaded Key.all ["a", "a", "e"]] := by
  intro sums b load entries commit after
  have hb : Reachable b := (Reachable.init "entries" sums).run _
  have hload : load ∈ b.pending := by decide +kernel
  obtain ⟨reached, rest, hsplit, _, htotal, _, hkept, hreached, hother, htold, _⟩ :=
    commit_writes hb hload ⟨0, 0⟩ entries
  obtain rfl := htotal fun held v h => by cases h
  obtain rfl : entries = reached := hsplit.trans (List.append_nil reached)
  have hgone : (b.cache.data.keys.filter fun k =>
      ((b.step (.commit load.seq ⟨0, 0⟩ (.ok entries))).cache.data.get? k).isNone) = ["d"] := by
    decide +kernel
  have hkeys : ((entries.map Prod.fst).filter fun k => !b.ledger.isSuperseded k load.seq)
      = ["a", "a", "e"] := by
    decide +kernel
  refine ⟨hload, ?_, ?_, ?_, ?_, ?_⟩ <;> dsimp only [after, commit]
  · have ha := hreached "a" (by decide +kernel) (by decide)
    exact Option.some.inj (ha.symm.trans (by decide +kernel))
  · exact (hkept "c" (by decide +kernel)).trans (by decide +kernel)
  · exact (hother "d" (by decide +kernel) (by decide)).trans (by decide +kernel)
  · have he := hreached "e" (by decide +kernel) (by decide)
    exact Option.some.inj (he.symm.trans (by decide +kernel))
  · rw [htold rfl, hgone, hkeys]
    rfl

/-- A merge that breaks down at the first entry keeps the commit from the second: its key was asked for,
was not superseded, and has one value that can be written, but it is not there, and nobody is told. -/
theorem commit_unwritten :
    let hook : Policy String Nat := { merge := fun _ v => if v = 0 then none else some v }
    let b := (new "entries" hook).run [.start (.list ["b", "a"]) Includes.none false]
    let load : PendingLoad String := ⟨⟨.list ["b", "a"], Includes.none⟩, 1, [.key "b", .key "a"]⟩
    let entries := [("b", 0), ("a", 7)]
    let commit : Op String Nat := .commit 1 ⟨0, 0⟩ (.ok entries)
    Reachable b ∧ load ∈ b.pending ∧ b.ledger.isSuperseded "a" load.seq = false
      ∧ "a" ∈ entries.map Prod.fst
      ∧ b.policy.combine (b.cache.data.get? "a") (valuesOf "a" entries) = some (some 7)
      ∧ (b.step commit).cache.data.get? "a" = none ∧ b.emits commit = [] := by
  intro hook b load entries commit
  refine ⟨(Reachable.init "entries" hook).run _, List.mem_cons_self, ?_, ?_, ?_, ?_, ?_⟩
  · decide +kernel
  · decide
  · rfl
  · decide +kernel
  · rfl

/-! ## Keys named one by one -/

/--
**What a load leaves of the keys it was asked for.**

A load of keys named one by one starts, and commits successfully with nothing in between. A key that
the answer has then holds what its values come to, merged one after the other into what it held before.
A key that the answer lacks is fresh, and holds what it held before: it is absent only if it was.
-/
theorem requested_after_commit {b : Busy κ ν} (hb : Reachable b) {key : Key κ} {inc : Includes}
    {force : Bool} {load : PendingLoad κ} (hkey : key.asAlias = none)
    (hstart : (b.cache.start b.name b.policy key inc force).result = .begun load)
    {now : Instant} {entries : List (κ × ν)}
    (hok : (b.step (.start key inc force)).succeeds (.commit load.seq now (.ok entries)) = true) :
    let after := ((b.step (.start key inc force)).step (.commit load.seq now (.ok entries))).cache
    ∀ k ∈ key.explicit,
      (k ∈ entries.map Prod.fst → b.policy.combine (b.cache.data.get? k) (valuesOf k entries)
          = some (after.data.get? k))
        ∧ (k ∉ entries.map Prod.fst → after.data.get? k = b.cache.data.get? k
          ∧ after.isOutdated (.single k) inc = false) := by
  obtain ⟨hsig, hbegun, hseq⟩ := seq_of_begun hstart
  have hsound : Sound (b.step (.start key inc force)) := sound_step (sound_reachable hb) _
  have hpolicy := b.policy_step (.start key inc force)
  have hdata := b.data_start key inc force
  -- from here on it matters only that the load carries the last number drawn
  generalize b.step (.start key inc force) = b₀ at hok hbegun hseq hsound hpolicy hdata ⊢
  intro after k hk
  have hcomplete := complete_of_success hsound hbegun hok
  have hinv : b₀.ledger.isInvalidated (.key k) load.seq = false :=
    hsound.blank _ _ (Nat.le_of_eq hseq.symm)
  have hs : b₀.ledger.isSuperseded k load.seq = false :=
    hsound.not_isSuperseded k (Nat.le_of_eq hseq.symm)
  have hafter : after = (b₀.cache.commit b₀.name b₀.policy now load (.ok entries)).cache :=
    cache_step_commit hsound hbegun now (.ok entries)
  rw [hafter, ← hpolicy, ← hdata]
  refine ⟨fun hmem => ?_, fun hmem => ⟨?_, ?_⟩⟩
  · obtain ⟨reached, rest, h⟩ := b₀.cache.exists_commitReaches b₀.policy now load entries
    have hall : reached = entries := by
      have hrest : rest = [] := h.complete.1 hcomplete
      rw [h.split, hrest, List.append_nil]
    subst hall
    exact Cache.data_commit_of_reached b₀.name h hs hmem
  · have hnotAll : ¬ load.signature.key.isAll = true := by
      rw [hsig]
      cases key with
      | byAlias a => cases hkey
      | _ => exact Bool.false_ne_true
    rw [Cache.data_commit_of_not_mem b₀.name b₀.policy now hmem hs, if_neg hnotAll]
  · have ht : Target.key k ∈ load.signature.key.requested := by
      rw [hsig]
      exact List.mem_append_left _ (List.mem_map_of_mem hk)
    have hfresh := Cache.isOutdated_commit b₀.name hcomplete ht hinv
    rw [hsig] at hfresh
    rw [Cache.isOutdated_single]
    exact hfresh

/-- Values that add up, and an answer that has one of two keys twice and lacks the other, which was not
cached. -/
theorem requested_after_commit_sums :
    let sums : Policy String Nat := { merge := fun held v => some (held.getD 0 + v) }
    let b := (new "entries" sums).run [.setMany ⟨0, 0⟩ [("a", 10)]]
    let key : Key String := .list ["a", "b"]
    let load : PendingLoad String := ⟨⟨key, Includes.none⟩, 2, [.key "a", .key "b"]⟩
    let b₀ := b.step (.start key Includes.none true)
    let commit : Op String Nat := .commit load.seq ⟨0, 0⟩ (.ok [("a", 1), ("a", 2)])
    let after := (b₀.step commit).cache
    (b.cache.start b.name b.policy key Includes.none true).result = .begun load
      ∧ b₀.succeeds commit = true
      ∧ after.data.get? "a" = some 13 ∧ after.data.get? "b" = none
      ∧ after.isOutdated (.single "b") Includes.none = false := by
  intro sums b key load b₀ commit after
  have hb : Reachable b := (Reachable.init "entries" sums).run _
  have hstart : (b.cache.start b.name b.policy key Includes.none true).result = .begun load := rfl
  have hok : b₀.succeeds commit = true := by decide +kernel
  obtain ⟨ha, _⟩ := requested_after_commit hb rfl hstart hok "a" (by decide)
  obtain ⟨_, hlacks⟩ := requested_after_commit hb rfl hstart hok "b" (by decide)
  obtain ⟨hdata, hfresh⟩ := hlacks (by decide)
  refine ⟨hstart, hok, ?_, ?_, hfresh⟩
  · dsimp only [after, b₀, commit]
    exact Option.some.inj ((ha (by decide)).symm.trans (by decide +kernel))
  · dsimp only [after, b₀, commit]
    exact hdata.trans (by decide +kernel)

/-- A key that is cached, asked for again, and not in the answer is still there afterwards. -/
theorem cached_after_loaded_absent :
    let b : Busy String Nat := (new "entries" {}).run [.setMany ⟨0, 0⟩ [("a", 1)]]
    let start : Op String Nat := .start (.single "a") Includes.none true
    let commit : Op String Nat := .commit 2 ⟨0, 0⟩ (.ok [])
    let load : PendingLoad String := ⟨⟨.single "a", Includes.none⟩, 2, [.key "a"]⟩
    Reachable b
      ∧ (b.cache.start b.name b.policy (.single "a") Includes.none true).result = .begun load
      ∧ (b.step start).succeeds commit = true
      ∧ ((b.step start).step commit).cache.data.get? "a" = some 1 := by
  intro b start commit load
  refine ⟨(Reachable.init "entries" {}).run _, rfl, ?_, ?_⟩
  · decide +kernel
  · decide +kernel

end Busy

end Larder
