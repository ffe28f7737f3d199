import Larder.Proofs.Counting
import Larder.Proofs.Eviction
import Larder.Proofs.Polling
import Larder.Proofs.Stock

/-!
# Records are coherent

A record says several things at once: that data was loaded, when, with which groups of fields, and that
it need not be loaded again. They are set one by one in many places, and a record comes into being where
the first of these places needs one. Still they never contradict each other, and no number stands in the
ledger that was not drawn.

All that is ever done to a record is one of six things, and `Lasting` lists them. What is lasting holds of
every record after every step, whichever records the step goes through; that a record is coherent is
lasting. That numbers stay below the counter needs no induction of its own: for a load that is still to
start nothing counts as overtaken, and this bounds every stamp.
-/

namespace Larder

/-! ## One record -/

namespace EntryMeta

/-- What is done to a record keeps `P`, whatever it is. -/
structure Lasting (P : EntryMeta → Prop) : Prop where
  /-- It holds of a new record. -/
  new : P {}
  /-- A load marks the record. -/
  load : ∀ {m}, P m → ∀ inc now, P (m.afterLoad inc now)
  /-- A local write marks it. -/
  write : ∀ {m}, P m → ∀ now, P (m.afterWrite now)
  /-- A failure is noted, or forgotten. -/
  failure : ∀ {m}, P m → ∀ f, P { m with failure := f }
  /-- The record is marked outdated. -/
  outdate : ∀ {m}, P m → P { m with outdated := true }
  /-- The loads that run are counted. -/
  count : ∀ {m}, P m → ∀ n, P { m with loading := n }

/-- What a record says does not contradict itself. -/
structure Coherent (m : EntryMeta) : Prop where
  /-- What need not be loaded again was loaded. -/
  loaded_of_fresh : m.outdated = false → m.loaded = true
  /-- What was loaded was loaded at some time. -/
  loadedAt : m.loaded = true ↔ m.loadedAt.isSome = true
  /-- What was not loaded has no groups of fields. -/
  includes : m.loaded = false → m.includes = Includes.none

theorem lasting_coherent : Lasting Coherent where
  new := ⟨fun h => Bool.noConfusion h, by simp, fun _ => rfl⟩
  load _ _ _ := ⟨fun _ => rfl, by simp [afterLoad], fun h => Bool.noConfusion h⟩
  write _ _ := ⟨fun _ => rfl, by simp [afterWrite], fun h => Bool.noConfusion h⟩
  failure h _ := ⟨h.loaded_of_fresh, h.loadedAt, h.includes⟩
  outdate h := ⟨fun hf => Bool.noConfusion hf, h.loadedAt, h.includes⟩
  count h _ := ⟨h.loaded_of_fresh, h.loadedAt, h.includes⟩

/-- To ask for two sets of groups at once is to ask for both. -/
theorem isStale_union (m : EntryMeta) (i j : Includes) :
    m.isStale (i.union j) = (m.isStale i || m.isStale j) := by
  have hcovered : (i.union j).coveredBy m.includes
      = (i.coveredBy m.includes && j.coveredBy m.includes) := by
    rw [Bool.eq_iff_iff, Bool.and_eq_true]
    simp only [Includes.coveredBy_iff, Includes.mem_union]
    exact ⟨fun h => ⟨fun n hn => h n (Or.inl hn), fun n hn => h n (Or.inr hn)⟩,
      fun h n hn => hn.elim (h.1 n) (h.2 n)⟩
  unfold isStale
  rw [hcovered]
  cases m.outdated <;> cases m.loaded <;> cases i.coveredBy m.includes <;> simp

end EntryMeta

namespace Ledger

variable {κ : Type} [DecidableEq κ]

theorem isOutdated_union (l : Ledger κ) (t : Target κ) (i j : Includes) :
    l.isOutdated t (i.union j) = (l.isOutdated t i || l.isOutdated t j) := by
  unfold isOutdated
  cases l.meta? t with
  | none => rfl
  | some m => exact m.isStale_union i j

/-- What is fresh for some groups is so for fewer. -/
theorem isOutdated_of_coveredBy {l : Ledger κ} {t : Target κ} {i j : Includes}
    (h : l.isOutdated t i = false) (hj : j.coveredBy i = true) : l.isOutdated t j = false := by
  have hboth := l.isOutdated_union t i j
  rw [Includes.union_of_coveredBy hj, h] at hboth
  exact (Bool.or_eq_false_iff.1 hboth.symm).2

end Ledger

open EntryMeta (Lasting)

/-! ## All records of a ledger -/

namespace Ledger

variable {κ : Type} [DecidableEq κ] {P : EntryMeta → Prop}

/-- Every record of the ledger satisfies `P`, and so does the one a target gets that has none. -/
def All (P : EntryMeta → Prop) (l : Ledger κ) : Prop := ∀ t, P (l.metaOf t)

theorem All.of_meta? {l : Ledger κ} (h : l.All P) {t : Target κ} {m : EntryMeta}
    (hm : l.meta? t = some m) : P m := by
  have ht := h t
  unfold metaOf at ht
  rw [hm] at ht
  exact ht

theorem All.foldl {α : Type} {f : Ledger κ → α → Ledger κ} (hf : ∀ l a, l.All P → (f l a).All P)
    (as : List α) {l : Ledger κ} (h : l.All P) : (as.foldl f l).All P := by
  induction as generalizing l with
  | nil => exact h
  | cons a as ih => exact ih (hf l a h)

theorem all_settle {l : Ledger κ} : l.settle.All P ↔ l.All P :=
  forall_congr' fun t => by rw [metaOf_settle]

section

variable {l : Ledger κ} (h : l.All P)

include h

theorem All.setMeta (t : Target κ) {m : EntryMeta} (hm : P m) : (l.setMeta t m).All P := by
  intro u
  rw [metaOf_setMeta]
  split
  · exact hm
  · exact h u

variable (hP : Lasting P)

include hP

theorem All.markLoadedBy (t : Target κ) (inc : Includes) (now : Instant) (seq : Nat) :
    (l.markLoadedBy t inc now seq).All P := by
  intro u
  rw [metaOf_markLoadedBy]
  split
  · exact hP.load (h u) inc now
  · exact h u

theorem All.markWritten (t : Target κ) (now : Instant) : (l.markWritten t now).All P :=
  h.setMeta t (hP.write (h t) now)

theorem All.markFailed (t : Target κ) (f : Failure) : (l.markFailed t f).All P :=
  h.setMeta t (hP.failure (h t) (some f))

theorem All.markOutdated (t : Target κ) (seq : Nat) : (l.markOutdated t seq).All P := by
  intro u
  rw [metaOf_markOutdated]
  split
  · exact hP.outdate (h u)
  · exact h u

theorem All.markAllOutdated (seq : Nat) : (l.markAllOutdated seq).All P := by
  intro u
  rw [metaOf_markAllOutdated]
  exact hP.outdate (h u)

/-- What is left of a record that is forgotten is a new one with the loads counted. -/
theorem All.forget (k : κ) : (l.forget k).All P := by
  intro u
  rw [metaOf_forget]
  split
  · exact hP.count hP.new _
  · exact h u

omit h in
theorem all_forgetAll (l : Ledger κ) : l.forgetAll.All P := by
  intro u
  obtain ⟨n, hn⟩ := metaOf_forgetAll l u
  rw [hn]
  exact hP.count hP.new n

theorem All.beginAt (t : Target κ) : (l.beginAt t).All P := by
  have hcounted := hP.count (h t) ((l.metaOf t).loading + 1)
  exact h.setMeta t (hP.failure hcounted none)

theorem All.startLoad (s : Signature κ) (load : InFlight κ) : (l.startLoad s load).All P :=
  All.foldl (fun _ t hl => All.beginAt hl hP t) load.targets h

theorem All.finishLoad (s : Signature κ) (seq : Nat) (ts : List (Target κ)) :
    (l.finishLoad s seq ts).All P := by
  intro t
  rw [(sameRecord_finishLoad l s seq ts t).metaOf]
  exact hP.count (h t) _

end

/-- No number stands in the ledger that was not drawn. -/
structure Drawn (l : Ledger κ) : Prop where
  /-- Of writes. -/
  stamps : ∀ k n, l.stamps.get? k = some n → n ≤ l.seq
  /-- Of invalidations. -/
  invalidated : ∀ t n, l.invalidated.get? t = some n → n ≤ l.seq
  /-- Of the last clearing. -/
  clearedAt : l.clearedAt ≤ l.seq
  /-- Of the last invalidation of everything. -/
  allOutdatedAt : l.allOutdatedAt ≤ l.seq
  /-- Of the loads that run. -/
  running : ∀ n ∈ l.running, n ≤ l.seq
  /-- Of the loads to join. -/
  inFlight : ∀ s e, l.inFlight.get? s = some e → e.seq ≤ l.seq

theorem le_of_later {o : Option Nat} {seq n : Nat} (h : later o seq = false)
    (ho : o = some n) : n ≤ seq := by
  rw [ho] at h
  simpa [later] using h

end Ledger

/-! ## The steps of a cache -/

namespace Cache

variable {κ ν : Type} [EntryKey κ] {P : EntryMeta → Prop} {c : Cache κ ν}

section

variable (hP : Lasting P) (h : c.ledger.All P)

include hP h

theorem all_removeAll (ks : List κ) (seq : Nat) : (c.removeAll ks seq).ledger.All P := by
  induction ks generalizing c with
  | nil => exact h
  | cons k ks ih =>
      rw [removeAll_cons]
      exact ih (h.forget hP k)

theorem all_writeLocally (p : Policy κ ν) (now : Instant) (seq : Nat) (entries : List (κ × ν)) :
    (writeLocally p now seq entries c).1.ledger.All P := by
  fun_induction writeLocally p now seq entries c with
  | case1 c => exact h
  | case2 k v rest c hw => exact h
  | case3 k v rest c c' hw ih =>
      obtain ⟨merged, _, rfl⟩ := eq_of_write? hw
      exact ih (Ledger.All.markWritten (l := c.ledger.stamp k seq) h hP (.key k) now)

theorem all_writeLoaded (p : Policy κ ν) (now : Instant) (inc : Includes) (seq : Nat)
    (entries : List (κ × ν)) : (writeLoaded p now inc seq entries c).cache.ledger.All P := by
  fun_induction writeLoaded p now inc seq entries c with
  | case1 c => exact h
  | case2 k v rest c hk ih => exact ih h
  | case3 k v rest c hk hw => exact h
  | case4 k v rest c hk c' hw w ih =>
      obtain ⟨merged, _, rfl⟩ := eq_of_write? hw
      exact ih (Ledger.All.markLoadedBy (l := c.ledger.stamp k seq) h hP (.key k) inc now seq)

theorem all_setMany (p : Policy κ ν) (now : Instant) (entries : List (κ × ν)) :
    (c.setMany p now entries).cache.ledger.All P := by
  have hwritten := all_writeLocally (c := c.draw) hP h p now (c.ledger.seq + 1) entries
  rcases ledger_setMany c p now entries with hl | hl
  · rw [hl]; exact hwritten
  · rw [hl]; exact Ledger.all_settle.2 hwritten

theorem all_replace (p : Policy κ ν) (now : Instant) (entries : List (κ × ν)) :
    (c.replace p now entries).cache.ledger.All P := by
  have hbase : (c.replaceBase entries).ledger.All P := all_removeAll (c := c.draw) hP h _ _
  have hwritten := all_writeLocally hP hbase p now (c.ledger.seq + 1) entries
  rcases ledger_replace c p now entries with hl | ⟨_, hl⟩
  · rw [hl]; exact hwritten
  · rw [hl]; exact Ledger.all_settle.2 (hwritten.markWritten hP _ now)

omit hP in
theorem all_update (k : κ) (f : ν → ν) : (c.update k f).cache.ledger.All P := by
  cases hk : c.data.get? k with
  | none => rw [update_of_none hk]; exact h
  | some v => rw [ledger_update hk]; exact Ledger.all_settle.2 h

theorem all_delete (key : Key κ) : (c.delete key).cache.ledger.All P := by
  rw [ledger_delete]
  exact Ledger.all_settle.2 (all_removeAll (c := c.draw) hP h _ _)

omit h in
theorem all_markEach (ks : List κ) (seq : Nat) {l : Ledger κ} (hl : l.All P) :
    (markEach seq ks l).1.All P := by
  induction ks generalizing l with
  | nil => exact hl
  | cons k ks ih => exact ih (hl.markOutdated hP (.key k) seq)

theorem all_markOutdated (key : Key κ) : (c.markOutdated key).cache.ledger.All P := by
  have halias : (markAlias c.ledger.draw key (c.ledger.seq + 1)).All P := by
    unfold markAlias
    split
    · exact Ledger.All.markOutdated (l := c.ledger.draw) h hP _ _
    · exact h
  rw [ledger_markOutdated]
  exact Ledger.all_settle.2 (all_markEach hP _ _ halias)

theorem all_purge (tracked : List (Key κ)) (cutoff : Instant) :
    (c.purge tracked cutoff).cache.ledger.All P := by
  by_cases he : c.expired tracked cutoff = []
  · rw [purge_of_nil he]; exact h
  · rw [ledger_purge he]
    exact Ledger.all_settle.2 ((all_removeAll (c := c.draw) hP h _ _).markOutdated hP _ _)

theorem all_start (name : String) (p : Policy κ ν) (key : Key κ) (inc : Includes) (force : Bool) :
    (c.start name p key inc force).cache.ledger.All P := by
  rcases c.start_cases name p key inc force with ⟨hcache, _⟩ | ⟨_, hstart⟩
  · rw [hcache]; exact h
  · rw [hstart]; exact Ledger.All.startLoad (l := c.ledger.draw) h hP _ _

omit h in
theorem all_markFailures (f : Failure) (sig : Signature κ) (seq : Nat) {l : Ledger κ}
    (hl : l.All P) : (markFailures f sig seq l).All P := by
  rw [markFailures_eq]
  refine Ledger.All.foldl (fun _ t hl => hl.markFailed hP t f) _
    (Ledger.All.foldl (fun l k hl => ?_) _ hl)
  unfold markFailedUnless
  split
  · exact hl
  · exact hl.markFailed hP (.key k) f

theorem all_commit (name : String) (p : Policy κ ν) (now : Instant) (load : PendingLoad κ)
    (answer : Except Cause (List (κ × ν))) :
    (c.commit name p now load answer).cache.ledger.All P := by
  have hfinished : (c.finished load).ledger.All P := h.finishLoad hP _ _ _
  cases answer with
  | error cause =>
      rw [ledger_commit_error]
      exact Ledger.all_settle.2 (all_markFailures hP _ _ _ hfinished)
  | ok entries =>
      have hwritten : (c.commitWrites p now load entries).cache.ledger.All P :=
        all_writeLoaded hP (all_removeAll hP hfinished _ _) p now _ _ entries
      rcases ledger_commit_ok c name p now load entries with ⟨_, hl⟩ | ⟨_, hl⟩
      · rw [hl]; exact hwritten
      · rw [hl]
        exact Ledger.all_settle.2
          (Ledger.All.foldl (fun _ t hl => hl.markLoadedBy hP t _ now load.seq) _ hwritten)

theorem all_abort (name : String) (load : PendingLoad κ) : (c.abort name load).cache.ledger.All P :=
  Ledger.all_settle.2 (h.finishLoad hP _ _ _)

end

theorem isOutdated_union (c : Cache κ ν) (key : Key κ) (i j : Includes) :
    c.isOutdated key (i.union j) = (c.isOutdated key i || c.isOutdated key j) := by
  rw [Bool.eq_iff_iff]
  simp only [isOutdated_eq_any, Ledger.isOutdated_union, Bool.or_eq_true, List.any_eq_true, and_or_left,
    exists_or]

end Cache

namespace Busy

variable {κ ν : Type} [EntryKey κ]

/-- **What is lasting holds of all records after every step.** -/
theorem all_step {P : EntryMeta → Prop} (hP : Lasting P) {b : Busy κ ν} (h : b.ledger.All P)
    (op : Op κ ν) : (b.step op).ledger.All P := by
  cases op with
  | setMany now entries => exact Cache.all_setMany hP h b.policy now entries
  | replace now entries => exact Cache.all_replace hP h b.policy now entries
  | update k f => exact Cache.all_update h k f
  | delete key => exact Cache.all_delete hP h key
  | clear => exact Ledger.all_settle.2 (Ledger.all_forgetAll hP _)
  | markOutdated key => exact Cache.all_markOutdated hP h key
  | markAllOutdated =>
      exact Ledger.all_settle.2 (Ledger.All.markAllOutdated (l := b.ledger.draw) h hP _)
  | purge tracked cutoff => exact Cache.all_purge hP h tracked cutoff
  | register name r => exact h
  | start key inc force =>
      rw [step_start]
      exact Cache.all_start hP h b.name b.policy key inc force
  | commit seq now answer =>
      cases hp : b.pending? seq with
      | none => rw [step_commit_of_none hp]; exact h
      | some load =>
          rw [step_commit_of_some hp]
          exact Cache.all_commit hP h b.name b.policy now load answer
  | abort seq =>
      cases hl : b.loose? seq with
      | none => rw [step_abort_of_none hl]; exact h
      | some load =>
          rw [step_abort_of_some hl]
          exact Cache.all_abort hP h b.name load

theorem all_reachable {P : EntryMeta → Prop} (hP : Lasting P) {b : Busy κ ν} (hb : Reachable b) :
    b.ledger.All P := by
  induction hb with
  | init name policy => exact fun _ => hP.new
  | tail _ op ih => exact all_step hP ih op

/-! ## Numbers -/

/-- A stamp under a number still to be drawn would overtake the load that is to draw it. -/
theorem drawn_reachable {b : Busy κ ν} (hb : Reachable b) : b.ledger.Drawn := by
  have hsound := sound_reachable hb
  have hblank := fun t => hsound.blank t b.ledger.seq (Nat.le_refl _)
  have hall := hblank (.named Alias.all)
  unfold Ledger.isInvalidated at hall
  rw [Bool.or_eq_false_iff, Bool.or_eq_false_iff] at hall
  refine ⟨fun k n hn => ?_, fun t n hn => ?_, ?_, ?_, fun n hn => ?_, fun s e he => ?_⟩
  · have hsup := hsound.not_isSuperseded k (Nat.le_refl _)
    rw [Ledger.isSuperseded, Bool.or_eq_false_iff] at hsup
    exact Ledger.le_of_later hsup.2 hn
  · have ht := hblank t
    unfold Ledger.isInvalidated at ht
    rw [Bool.or_eq_false_iff, Bool.or_eq_false_iff] at ht
    exact Ledger.le_of_later ht.1.2 hn
  · simpa using hall.2
  · simpa using hall.1.1
  · obtain ⟨load, hload, rfl⟩ := (hsound.running n).1 hn
    exact hsound.drawn_pending hload
  · exact hsound.drawn_pending ((placed_reachable hb).held s e he)

/-- Loads to join under different signatures have different numbers. -/
theorem inFlight_injective {b : Busy κ ν} (hb : Reachable b) {s s' : Signature κ}
    {e e' : InFlight κ} (he : b.ledger.inFlight.get? s = some e)
    (he' : b.ledger.inFlight.get? s' = some e') (hseq : e.seq = e'.seq) : s = s' := by
  have hplaced := placed_reachable hb
  exact congrArg PendingLoad.signature
    ((sound_reachable hb).eq_of_seq (hplaced.held s e he) (hplaced.held s' e' he') hseq)

/--
**Records are coherent, and numbers are drawn.**

In every state that a cache can come to, whatever its name and policy and in whatever order local
changes, starts, commits and aborts of loads came, every record, of a key or of an alias, says one thing:
if it is not outdated, it was loaded; it was loaded exactly if the time of that is noted; and if it was not
loaded, it has no groups of fields. Every number in the ledger has been drawn; the loads under way have
different numbers, the running ones are listed once each, and so are those that can be joined.

So for every key and all groups of fields, what is not outdated is loaded; and two sets of groups together
are outdated exactly if one of them is.
-/
theorem records_coherent {b : Busy κ ν} (hb : Reachable b) :
    (∀ t m, b.ledger.meta? t = some m → m.Coherent)
      ∧ b.ledger.Drawn
      ∧ (b.pending.map PendingLoad.seq).Nodup ∧ b.ledger.running.Nodup
      ∧ (∀ s s' e e', b.ledger.inFlight.get? s = some e → b.ledger.inFlight.get? s' = some e' →
          e.seq = e'.seq → s = s')
      ∧ ∀ key, (∀ i, b.cache.isOutdated key i = false → b.cache.isLoaded key i = true)
        ∧ ∀ i j, b.cache.isOutdated key (i.union j) = true
          ↔ b.cache.isOutdated key i = true ∨ b.cache.isOutdated key j = true := by
  have hnumbers : (b.pending.map PendingLoad.seq).Nodup :=
    List.pairwise_map.2 ((sound_reachable hb).ordered.imp Nat.ne_of_lt)
  refine ⟨fun t m hm => (all_reachable EntryMeta.lasting_coherent hb).of_meta? hm, drawn_reachable hb,
    hnumbers, ?_, fun s s' e e' he he' => inFlight_injective hb he he', fun key => ⟨fun i hi => ?_,
      fun i j => ?_⟩⟩
  · rw [running_reachable hb]
    exact hnumbers
  · exact Cache.isLoaded_of_not_isOutdated hi
  · rw [b.cache.isOutdated_union, Bool.or_eq_true]

/-- A load of two keys runs while one of them is written locally and all entries are asked for; it
commits, and what it brought is marked outdated. -/
theorem records_coherent_interleaved :
    let groups := Includes.ofList ["meta"]
    let b : Busy String Nat := (new "entries" {}).run
      [.start (.list ["a", "b"]) groups false, .setMany ⟨5, 0⟩ [("a", 1)],
        .start .all Includes.none false, .commit 1 ⟨6, 0⟩ (.ok [("a", 7), ("b", 8)]),
        .markOutdated (.single "b")]
    (∃ m, b.ledger.meta? (.key "b") = some m ∧ m.Coherent ∧ m.loadedAt = some ⟨6, 0⟩
        ∧ m.outdated = true)
      ∧ b.ledger.Drawn ∧ b.ledger.seq = 4 ∧ b.ledger.running = [3] ∧ b.ledger.running.Nodup
      ∧ b.cache.isLoaded (.single "a") Includes.none = true
      ∧ b.cache.isOutdated (.single "a") (Includes.none.union groups) = true := by
  intro groups b
  have hb : Reachable b := (Reachable.init "entries" {}).run _
  obtain ⟨hrecords, hdrawn, -, hrunning, -, hkeys⟩ := records_coherent hb
  obtain ⟨hloaded, hunion⟩ := hkeys (.single "a")
  refine ⟨?_, hdrawn, by decide +kernel, by decide +kernel, hrunning,
    hloaded Includes.none (by decide +kernel),
    (hunion Includes.none groups).2 (Or.inr (by decide +kernel))⟩
  have hmeta : (b.ledger.meta? (.key "b")).map (fun m => (m.loadedAt, m.outdated))
      = some (some ⟨6, 0⟩, true) := by decide +kernel
  obtain ⟨m, hm, hsays⟩ := Option.map_eq_some_iff.1 hmeta
  exact ⟨m, hm, hrecords _ m hm, congrArg Prod.fst hsays, congrArg Prod.snd hsays⟩

end Busy

end Larder
