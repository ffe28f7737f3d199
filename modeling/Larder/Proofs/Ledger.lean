import Larder.Cache.Ledger

/-!
# What a ledger answers after each of its operations

Loads ask a ledger three things: what the record of a target says, whether a key was written since
they started, and whether a target was invalidated since. This file says how every operation changes
those answers, so that nothing after it looks into the tables.

Most operations touch records only. `SameBooks` says so once for each of them, and everything that
does not read records is then the same before and after.
-/

namespace Larder

namespace EntryMeta

/-- The record apart from its count of running loads. -/
def atRest (m : EntryMeta) : EntryMeta := { m with loading := 0 }

/-- Whether the record is fresh for a request without includes. -/
def isFresh (m : EntryMeta) : Bool := m.loaded && !m.outdated

theorem isFresh_atRest (m : EntryMeta) : m.atRest.isFresh = m.isFresh := rfl

theorem isStale_atRest (m : EntryMeta) (inc : Includes) : m.atRest.isStale inc = m.isStale inc := rfl

theorem isStale_of_not_isFresh {m : EntryMeta} (h : m.isFresh = false) (inc : Includes) :
    m.isStale inc = true := by
  unfold isFresh at h
  unfold isStale
  cases hl : m.loaded <;> cases ho : m.outdated <;> simp_all

end EntryMeta

namespace Ledger

variable {κ : Type}

/-! ## Operations on records only -/

/-- The second ledger differs from the first in its records only. -/
def SameBooks (l l' : Ledger κ) : Prop := l' = { l with metas := l'.metas }

namespace SameBooks

variable {l l' l'' : Ledger κ}

theorem refl (l : Ledger κ) : l.SameBooks l := rfl

theorem trans (h : l.SameBooks l') (h' : l'.SameBooks l'') : l.SameBooks l'' := by
  unfold SameBooks at h h' ⊢
  rw [h', h]

theorem running (h : l.SameBooks l') : l'.running = l.running := by rw [h]

theorem inFlight (h : l.SameBooks l') : l'.inFlight = l.inFlight := by rw [h]

theorem seq (h : l.SameBooks l') : l'.seq = l.seq := by rw [h]

/-- A fold of operations on records is one. -/
theorem foldl {α : Type} {f : Ledger κ → α → Ledger κ} (hf : ∀ (l : Ledger κ) (a : α), l.SameBooks (f l a))
    (as : List α) (l : Ledger κ) : l.SameBooks (as.foldl f l) := by
  induction as generalizing l with
  | nil => exact refl l
  | cons a as ih => exact (hf l a).trans (ih (f l a))

end SameBooks

theorem sameBooks_forgetAll (l : Ledger κ) : l.SameBooks l.forgetAll := rfl

/-! ## Settling -/

@[simp]
theorem running_settle (l : Ledger κ) : l.settle.running = l.running := by
  unfold settle; split <;> rfl

@[simp]
theorem inFlight_settle (l : Ledger κ) : l.settle.inFlight = l.inFlight := by
  unfold settle; split <;> rfl

@[simp]
theorem seq_settle (l : Ledger κ) : l.settle.seq = l.seq := by
  unfold settle; split <;> rfl

/-- While a load runs, settling changes nothing. -/
theorem settle_of_running {l : Ledger κ} {n : Nat} (h : n ∈ l.running) : l.settle = l := by
  unfold settle
  rw [if_neg]
  intro hempty
  rw [List.isEmpty_iff.1 hempty] at h
  exact List.not_mem_nil h

variable [DecidableEq κ]

theorem SameBooks.isSuperseded {l l' : Ledger κ} (h : l.SameBooks l') (k : κ) (n : Nat) :
    l'.isSuperseded k n = l.isSuperseded k n := by rw [h]; rfl

theorem SameBooks.isInvalidated {l l' : Ledger κ} (h : l.SameBooks l') (t : Target κ) (n : Nat) :
    l'.isInvalidated t n = l.isInvalidated t n := by rw [h]; cases t <;> rfl

/-! ## Records -/

@[simp]
theorem meta?_settle (l : Ledger κ) (t : Target κ) : l.settle.meta? t = l.meta? t := by
  unfold settle; split <;> rfl

@[simp]
theorem meta?_setMeta (l : Ledger κ) (t u : Target κ) (m : EntryMeta) :
    (l.setMeta t m).meta? u = if t = u then some m else l.meta? u :=
  Table.get?_set l.metas t u m

theorem meta?_markLoaded (l : Ledger κ) (t u : Target κ) (inc : Includes) (now : Instant) :
    (l.markLoaded t inc now).meta? u
      = if t = u then some ((l.metaOf t).afterLoad inc now) else l.meta? u :=
  meta?_setMeta l t u _

theorem meta?_markLoadedBy_of_ne (l : Ledger κ) {t u : Target κ} (h : ¬ t = u) (inc : Includes)
    (now : Instant) (seq : Nat) : (l.markLoadedBy t inc now seq).meta? u = l.meta? u := by
  unfold markLoadedBy
  split
  · rfl
  · rw [meta?_markLoaded, if_neg h]

theorem meta?_markFailed (l : Ledger κ) (t u : Target κ) (f : Failure) :
    (l.markFailed t f).meta? u
      = if t = u then some { l.metaOf t with failure := some f } else l.meta? u :=
  meta?_setMeta l t u _

theorem meta?_endAt (l : Ledger κ) (t u : Target κ) :
    (l.endAt t).meta? u = if t = u
      then (l.meta? u).map fun m => { m with loading := m.loading - 1 } else l.meta? u :=
  Table.get?_modify l.metas t u _

theorem meta?_markOutdated (l : Ledger κ) (t u : Target κ) (seq : Nat) :
    (l.markOutdated t seq).meta? u = if t = u
      then (l.meta? u).map fun m => { m with outdated := true } else l.meta? u :=
  Table.get?_modify l.metas t u _

theorem meta?_markAllOutdated (l : Ledger κ) (seq : Nat) (u : Target κ) :
    (l.markAllOutdated seq).meta? u = (l.meta? u).map fun m => { m with outdated := true } :=
  Table.get?_mapValues _ l.metas u

theorem meta?_forget (l : Ledger κ) (k : κ) (u : Target κ) :
    (l.forget k).meta? u = if Target.key k = u
      then (l.meta? u).bind fun m => if m.isLoading then some m.onlyLoading else none
      else l.meta? u := by
  unfold forget
  by_cases hu : Target.key k = u
  · -- with loads still running the record is emptied, without any it is erased
    subst hu
    cases hm : l.meta? (.key k) with
    | none => simp [hm]
    | some m =>
        by_cases hl : m.isLoading
        · simp [hl]
        · simp [hl, meta?]
  · cases hm : l.meta? (.key k) with
    | none => simp [hu]
    | some m =>
        by_cases hl : m.isLoading
        · simp [hl, hu]
        · simp [hl, hu, meta?]

theorem meta?_forgetAll (l : Ledger κ) (u : Target κ) :
    l.forgetAll.meta? u
      = ((l.metas.filterValues EntryMeta.isLoading).get? u).map EntryMeta.onlyLoading :=
  Table.get?_mapValues _ _ u

theorem sameBooks_markLoadedBy (l : Ledger κ) (t : Target κ) (inc : Includes) (now : Instant)
    (seq : Nat) : l.SameBooks (l.markLoadedBy t inc now seq) := by
  unfold markLoadedBy; split <;> rfl

theorem sameBooks_markWritten (l : Ledger κ) (t : Target κ) (now : Instant) :
    l.SameBooks (l.markWritten t now) := rfl

theorem sameBooks_markFailed (l : Ledger κ) (t : Target κ) (f : Failure) :
    l.SameBooks (l.markFailed t f) := rfl

theorem sameBooks_beginAt (l : Ledger κ) (t : Target κ) : l.SameBooks (l.beginAt t) := rfl

theorem sameBooks_endAt (l : Ledger κ) (t : Target κ) : l.SameBooks (l.endAt t) := rfl

theorem sameBooks_forget (l : Ledger κ) (k : κ) : l.SameBooks (l.forget k) := by
  unfold forget
  split
  · rfl
  · split <;> rfl

/-! ## Numbers -/

theorem decide_max_gt (m seq n : Nat) :
    decide (max m seq > n) = (decide (m > n) || decide (n < seq)) := by
  rw [Bool.eq_iff_iff, Bool.or_eq_true, decide_eq_true_eq, decide_eq_true_eq, decide_eq_true_eq]
  omega

theorem later_max (o : Option Nat) (seq n : Nat) :
    later (some (max (o.getD seq) seq)) n = (later o n || decide (n < seq)) := by
  cases o with
  | none => simp [later]
  | some s => exact decide_max_gt s seq n

@[simp]
theorem isSuperseded_draw (l : Ledger κ) (k : κ) (n : Nat) :
    l.draw.isSuperseded k n = l.isSuperseded k n := rfl

@[simp]
theorem isInvalidated_draw (l : Ledger κ) (t : Target κ) (n : Nat) :
    l.draw.isInvalidated t n = l.isInvalidated t n := by cases t <;> rfl

theorem isInvalidated_key (l : Ledger κ) (k : κ) (n : Nat) :
    l.isInvalidated (.key k) n
      = (decide (l.allOutdatedAt > n) || later (l.invalidated.get? (.key k)) n
          || l.isSuperseded k n) := rfl

/-- A stamp counts against the loads that started before it, and for its key only. -/
theorem isSuperseded_stamp (l : Ledger κ) (k j : κ) (seq n : Nat) :
    (l.stamp k seq).isSuperseded j n
      = (l.isSuperseded j n || (decide (k = j) && decide (n < seq))) := by
  unfold isSuperseded stamp
  rw [Table.get?_set]
  by_cases h : k = j
  · subst h
    simp [later_max, Bool.or_assoc]
  · simp [h]

theorem isInvalidated_stamp (l : Ledger κ) (k : κ) (t : Target κ) (seq n : Nat) :
    (l.stamp k seq).isInvalidated t n
      = (l.isInvalidated t n || (decide (t = .key k) && decide (n < seq))) := by
  cases t with
  | key j =>
      rw [isInvalidated_key, isInvalidated_key, isSuperseded_stamp]
      by_cases h : k = j
      · subst h
        simp [stamp, Bool.or_assoc]
      · simp [stamp, h, Ne.symm h]
  | named a => simp [isInvalidated, stamp]

theorem isSuperseded_stampClear (l : Ledger κ) (k : κ) (seq n : Nat) :
    (l.stampClear seq).isSuperseded k n = (l.isSuperseded k n || decide (n < seq)) := by
  unfold isSuperseded stampClear
  rw [decide_max_gt, Bool.or_assoc, Bool.or_comm (decide (n < seq)), Bool.or_assoc]

theorem isInvalidated_stampClear (l : Ledger κ) (t : Target κ) (seq n : Nat) :
    (l.stampClear seq).isInvalidated t n = (l.isInvalidated t n || decide (n < seq)) := by
  cases t with
  | key k =>
      rw [isInvalidated_key, isInvalidated_key, isSuperseded_stampClear]
      exact (Bool.or_assoc _ _ _).symm
  | named a =>
      unfold isInvalidated stampClear
      rw [decide_max_gt]
      exact (Bool.or_assoc _ _ _).symm

@[simp]
theorem isSuperseded_markOutdated (l : Ledger κ) (t : Target κ) (k : κ) (seq n : Nat) :
    (l.markOutdated t seq).isSuperseded k n = l.isSuperseded k n := rfl

/-- An invalidation counts against the loads that started before it, and for its target only. -/
theorem isInvalidated_markOutdated (l : Ledger κ) (t u : Target κ) (seq n : Nat) :
    (l.markOutdated t seq).isInvalidated u n
      = (l.isInvalidated u n || (decide (u = t) && decide (n < seq))) := by
  have hlater : later ((l.markOutdated t seq).invalidated.get? u) n
      = (later (l.invalidated.get? u) n || (decide (u = t) && decide (n < seq))) := by
    unfold markOutdated
    rw [Table.get?_set]
    by_cases h : t = u
    · subst h
      simp [later_max]
    · simp [h, Ne.symm h]
  unfold isInvalidated
  rw [hlater]
  cases u <;> simp [markOutdated, isSuperseded, Bool.or_assoc, Bool.or_comm, Bool.or_left_comm]

@[simp]
theorem isSuperseded_markAllOutdated (l : Ledger κ) (k : κ) (seq n : Nat) :
    (l.markAllOutdated seq).isSuperseded k n = l.isSuperseded k n := rfl

theorem isInvalidated_markAllOutdated (l : Ledger κ) (t : Target κ) (seq n : Nat) :
    (l.markAllOutdated seq).isInvalidated t n = (l.isInvalidated t n || decide (n < seq)) := by
  have hall : decide ((l.markAllOutdated seq).allOutdatedAt > n)
      = (decide (l.allOutdatedAt > n) || decide (n < seq)) := decide_max_gt _ _ _
  unfold isInvalidated
  rw [hall]
  cases t <;> simp [markAllOutdated, isSuperseded, Bool.or_assoc, Bool.or_comm, Bool.or_left_comm]

theorem isInvalidated_of_isSuperseded {l : Ledger κ} {k : κ} {n : Nat}
    (h : l.isSuperseded k n = true) : l.isInvalidated (.key k) n = true := by
  rw [isInvalidated_key, h, Bool.or_true]

theorem isInvalidated_of_settle {l : Ledger κ} {t : Target κ} {n : Nat}
    (h : l.settle.isInvalidated t n = true) : l.isInvalidated t n = true := by
  unfold settle at h
  split at h
  · -- without stamps only a clearing or an invalidation of everything is left
    cases t <;> simp_all [isInvalidated, isSuperseded, later]
    all_goals omega
  · exact h

/-! ## Freshness -/

/-- The record of the target is fresh for a request without includes. -/
def Fresh (l : Ledger κ) (t : Target κ) : Prop := ∃ m, l.meta? t = some m ∧ m.isFresh = true

/-- What is not fresh without includes is outdated for every request. -/
theorem isOutdated_of_not_fresh {l : Ledger κ} {t : Target κ} (h : ¬ l.Fresh t) (inc : Includes) :
    l.isOutdated t inc = true := by
  unfold isOutdated
  cases hm : l.meta? t with
  | none => rfl
  | some m =>
      have hm' : m.isFresh = false := by
        cases hf : m.isFresh with
        | false => rfl
        | true => exact absurd ⟨m, hm, hf⟩ h
      exact EntryMeta.isStale_of_not_isFresh hm' inc

theorem isFresh_metaOf (l : Ledger κ) (t : Target κ) :
    (l.metaOf t).isFresh = true ↔ l.Fresh t := by
  unfold metaOf Fresh
  cases l.meta? t with
  | none => simp [EntryMeta.isFresh]
  | some m => simp

theorem fresh_congr {l l' : Ledger κ} {t : Target κ} (h : l'.meta? t = l.meta? t) :
    l'.Fresh t ↔ l.Fresh t := by
  unfold Fresh; rw [h]

theorem fresh_setMeta (l : Ledger κ) (t u : Target κ) (m : EntryMeta) :
    (l.setMeta t m).Fresh u ↔ (t = u ∧ m.isFresh = true) ∨ (t ≠ u ∧ l.Fresh u) := by
  unfold Fresh
  rw [meta?_setMeta]
  by_cases h : t = u <;> simp [h]

theorem fresh_markLoaded (l : Ledger κ) (t u : Target κ) (inc : Includes) (now : Instant) :
    (l.markLoaded t inc now).Fresh u ↔ t = u ∨ l.Fresh u := by
  unfold markLoaded
  rw [fresh_setMeta]
  by_cases h : t = u <;> simp [h, EntryMeta.isFresh, EntryMeta.afterLoad]

/-- A load makes its target fresh unless the target was invalidated since the load started. -/
theorem fresh_markLoadedBy (l : Ledger κ) (t u : Target κ) (inc : Includes) (now : Instant)
    (seq : Nat) :
    (l.markLoadedBy t inc now seq).Fresh u ↔ (t = u ∧ l.isInvalidated u seq = false) ∨ l.Fresh u := by
  unfold markLoadedBy
  by_cases hi : l.isInvalidated t seq = true
  · -- nothing is marked, and the first alternative cannot hold either
    rw [if_pos hi]
    constructor
    · exact Or.inr
    · rintro (⟨rfl, h⟩ | h)
      · rw [hi] at h; exact Bool.noConfusion h
      · exact h
  · rw [if_neg hi, fresh_markLoaded]
    constructor
    · rintro (rfl | h)
      · exact Or.inl ⟨rfl, by simpa using hi⟩
      · exact Or.inr h
    · rintro (⟨h, _⟩ | h)
      · exact Or.inl h
      · exact Or.inr h

theorem fresh_markWritten (l : Ledger κ) (t u : Target κ) (now : Instant) :
    (l.markWritten t now).Fresh u ↔ t = u ∨ l.Fresh u := by
  unfold markWritten
  rw [fresh_setMeta]
  by_cases h : t = u <;> simp [h, EntryMeta.isFresh, EntryMeta.afterWrite]

theorem fresh_markFailed (l : Ledger κ) (t u : Target κ) (f : Failure) :
    (l.markFailed t f).Fresh u ↔ l.Fresh u := by
  unfold markFailed
  rw [fresh_setMeta]
  by_cases h : t = u
  · subst h
    simp only [true_and, ne_eq, not_true_eq_false, false_and, or_false]
    exact isFresh_metaOf l t
  · simp [h]

theorem fresh_beginAt (l : Ledger κ) (t u : Target κ) : (l.beginAt t).Fresh u ↔ l.Fresh u := by
  unfold beginAt
  rw [fresh_setMeta]
  by_cases h : t = u
  · subst h
    simp only [true_and, ne_eq, not_true_eq_false, false_and, or_false]
    exact isFresh_metaOf l t
  · simp [h]

theorem fresh_markOutdated (l : Ledger κ) (t u : Target κ) (seq : Nat) :
    (l.markOutdated t seq).Fresh u ↔ t ≠ u ∧ l.Fresh u := by
  unfold Fresh
  rw [meta?_markOutdated]
  by_cases h : t = u
  · subst h
    cases l.meta? t <;> simp [EntryMeta.isFresh]
  · simp [h]

theorem not_fresh_markAllOutdated (l : Ledger κ) (seq : Nat) (u : Target κ) :
    ¬ (l.markAllOutdated seq).Fresh u := by
  unfold Fresh
  rw [meta?_markAllOutdated]
  cases l.meta? u <;> simp [EntryMeta.isFresh]

theorem fresh_forget (l : Ledger κ) (k : κ) (u : Target κ) :
    (l.forget k).Fresh u ↔ Target.key k ≠ u ∧ l.Fresh u := by
  unfold Fresh
  rw [meta?_forget]
  by_cases h : Target.key k = u
  · subst h
    cases l.meta? (.key k) with
    | none => simp
    | some m => by_cases hm : m.isLoading <;> simp [hm, EntryMeta.isFresh, EntryMeta.onlyLoading]
  · simp [h]

theorem not_fresh_forgetAll (l : Ledger κ) (u : Target κ) : ¬ l.forgetAll.Fresh u := by
  unfold Fresh
  rw [meta?_forgetAll]
  rintro ⟨m, hm, hf⟩
  obtain ⟨m₀, _, rfl⟩ := Option.map_eq_some_iff.1 hm
  exact Bool.noConfusion hf

/-! ## The start and the end of a load -/

/-- The second ledger says of the target what the first says, except that loads of it may have
ended. -/
def SameRecord (l l' : Ledger κ) (t : Target κ) : Prop :=
  (l'.meta? t).map EntryMeta.atRest = (l.meta? t).map EntryMeta.atRest
    ∧ (l'.metaOf t).loading ≤ (l.metaOf t).loading

namespace SameRecord

variable {l l' l'' : Ledger κ} {t : Target κ}

theorem of_eq (h : l'.meta? t = l.meta? t) : l.SameRecord l' t := by
  unfold SameRecord metaOf
  rw [h]
  exact ⟨rfl, Nat.le_refl _⟩

theorem trans (h : l.SameRecord l' t) (h' : l'.SameRecord l'' t) : l.SameRecord l'' t :=
  ⟨h'.1.trans h.1, Nat.le_trans h'.2 h.2⟩

theorem isOutdated (h : l.SameRecord l' t) (inc : Includes) :
    l'.isOutdated t inc = l.isOutdated t inc := by
  have heq := h.1
  unfold Ledger.isOutdated
  cases hm : l.meta? t with
  | none =>
      rw [hm] at heq
      rw [Option.map_eq_none_iff.1 heq]
  | some m =>
      rw [hm] at heq
      obtain ⟨m', hm', hrest⟩ := Option.map_eq_some_iff.1 heq
      rw [hm']
      show m'.isStale inc = m.isStale inc
      rw [← EntryMeta.isStale_atRest m', hrest, EntryMeta.isStale_atRest]

theorem fresh (h : l.SameRecord l' t) : l'.Fresh t ↔ l.Fresh t := by
  -- the count of running loads, in which the two may differ, has no part in freshness
  have key : ∀ {l₁ l₂ : Ledger κ}, (l₂.meta? t).map EntryMeta.atRest
      = (l₁.meta? t).map EntryMeta.atRest → l₁.Fresh t → l₂.Fresh t := by
    rintro l₁ l₂ heq ⟨m, hm, hf⟩
    rw [hm] at heq
    obtain ⟨m', hm', hrest⟩ := Option.map_eq_some_iff.1 heq
    exact ⟨m', hm', by rw [← EntryMeta.isFresh_atRest, hrest, EntryMeta.isFresh_atRest, hf]⟩
  exact ⟨key h.1.symm, key h.1⟩

end SameRecord

theorem sameRecord_endAt (l : Ledger κ) (t u : Target κ) : l.SameRecord (l.endAt t) u := by
  unfold SameRecord metaOf
  rw [meta?_endAt]
  by_cases h : t = u
  · subst h
    rw [if_pos rfl]
    cases l.meta? t with
    | none => exact ⟨rfl, Nat.le_refl _⟩
    | some m => exact ⟨rfl, Nat.sub_le _ _⟩
  · rw [if_neg h]
    exact ⟨rfl, Nat.le_refl _⟩

/-! ### Joining -/

/-- A load can be joined if it is the entry of its signature and none of its targets was invalidated
since it started. -/
theorem joinable?_eq_some {l : Ledger κ} {s : Signature κ} {n : Nat} :
    l.joinable? s = some n ↔ ∃ load, l.inFlight.get? s = some load ∧ load.seq = n
      ∧ ∀ t ∈ load.targets, l.isInvalidated t load.seq = false := by
  unfold joinable?
  cases l.inFlight.get? s with
  | none => simp
  | some load =>
      by_cases h : (load.targets.any fun t => l.isInvalidated t load.seq) = true
      · obtain ⟨t, ht, hi⟩ := List.any_eq_true.1 h
        simp only [h, ↓reduceIte, reduceCtorEq, false_iff]
        rintro ⟨load', hload, _, hall⟩
        cases hload
        rw [hall t ht] at hi
        exact Bool.noConfusion hi
      · have hall : ∀ t ∈ load.targets, l.isInvalidated t load.seq = false := by
          simpa using h
        simpa [h] using fun _ => hall

theorem exists_isInvalidated_of_joinable? {l : Ledger κ} {s : Signature κ} {load : InFlight κ}
    (h : l.joinable? s = none) (hs : l.inFlight.get? s = some load) :
    ∃ t ∈ load.targets, l.isInvalidated t load.seq = true := by
  unfold joinable? at h
  rw [hs] at h
  by_cases hany : (load.targets.any fun t => l.isInvalidated t load.seq) = true
  · exact List.any_eq_true.1 hany
  · simp [hany] at h

/-! ### Starting -/

theorem sameBooks_beginAll (ts : List (Target κ)) (l : Ledger κ) :
    l.SameBooks (ts.foldl beginAt l) :=
  SameBooks.foldl sameBooks_beginAt ts l

theorem running_startLoad (l : Ledger κ) (s : Signature κ) (load : InFlight κ) :
    (l.startLoad s load).running = l.running ++ [load.seq] := by
  show (load.targets.foldl beginAt l).running ++ [load.seq] = l.running ++ [load.seq]
  rw [(sameBooks_beginAll load.targets l).running]

theorem inFlight_startLoad (l : Ledger κ) (s : Signature κ) (load : InFlight κ) :
    (l.startLoad s load).inFlight = l.inFlight.set s load := by
  show (load.targets.foldl beginAt l).inFlight.set s load = l.inFlight.set s load
  rw [(sameBooks_beginAll load.targets l).inFlight]

theorem seq_startLoad (l : Ledger κ) (s : Signature κ) (load : InFlight κ) :
    (l.startLoad s load).seq = l.seq :=
  (sameBooks_beginAll load.targets l).seq

theorem isSuperseded_startLoad (l : Ledger κ) (s : Signature κ) (load : InFlight κ) (k : κ)
    (n : Nat) : (l.startLoad s load).isSuperseded k n = l.isSuperseded k n :=
  (sameBooks_beginAll load.targets l).isSuperseded k n

theorem isInvalidated_startLoad (l : Ledger κ) (s : Signature κ) (load : InFlight κ)
    (t : Target κ) (n : Nat) : (l.startLoad s load).isInvalidated t n = l.isInvalidated t n := by
  rw [← (sameBooks_beginAll load.targets l).isInvalidated t n]
  cases t <;> rfl

theorem fresh_startLoad (l : Ledger κ) (s : Signature κ) (load : InFlight κ) (t : Target κ) :
    (l.startLoad s load).Fresh t ↔ l.Fresh t := by
  -- a start resets failures and counts loads, target after target
  have hfold : ∀ (ts : List (Target κ)) (l : Ledger κ), (ts.foldl beginAt l).Fresh t ↔ l.Fresh t := by
    intro ts
    induction ts with
    | nil => intro l; exact Iff.rfl
    | cons u ts ih => intro l; exact (ih (l.beginAt u)).trans (fresh_beginAt l u t)
  exact hfold load.targets l

/-! ### Ending -/

/-- A ledger with the end of a load noted in its books, not yet in its records. -/
def closeLoad (l : Ledger κ) (s : Signature κ) (seq : Nat) : Ledger κ :=
  { l with
    inFlight := match l.inFlight.get? s with
      | some load => if load.seq = seq then l.inFlight.erase s else l.inFlight
      | none => l.inFlight
    running := l.running.filter fun n => ¬ n = seq }

theorem finishLoad_eq (l : Ledger κ) (s : Signature κ) (seq : Nat) (ts : List (Target κ)) :
    l.finishLoad s seq ts
      = if l.running.contains seq then ts.foldl endAt (l.closeLoad s seq) else l.closeLoad s seq := by
  have key : ∀ table : Table (Signature κ) (InFlight κ),
      (if l.running.contains seq then
        ts.foldl endAt { l with inFlight := table, running := l.running.filter fun n => ¬ n = seq }
      else { l with inFlight := table })
      = if l.running.contains seq then
        ts.foldl endAt { l with inFlight := table, running := l.running.filter fun n => ¬ n = seq }
      else { l with inFlight := table, running := l.running.filter fun n => ¬ n = seq } := by
    intro table
    by_cases hc : l.running.contains seq = true
    · rw [if_pos hc, if_pos hc]
    · -- filtering out a load that is not running leaves all that run
      have hkeep : l.running.filter (fun n => ¬ n = seq) = l.running := by
        refine List.filter_eq_self.2 fun n hn => ?_
        have hne : n ≠ seq := by
          rintro rfl
          exact hc (List.contains_iff_mem.2 hn)
        simpa using hne
      rw [if_neg hc, if_neg hc, hkeep]
  unfold finishLoad closeLoad
  cases hf : l.inFlight.get? s with
  | none => exact key l.inFlight
  | some load =>
      by_cases hs : load.seq = seq
      · simp only [if_pos hs]
        exact key (l.inFlight.erase s)
      · simp only [if_neg hs]
        exact key l.inFlight

theorem sameBooks_finishLoad (l : Ledger κ) (s : Signature κ) (seq : Nat) (ts : List (Target κ)) :
    (l.closeLoad s seq).SameBooks (l.finishLoad s seq ts) := by
  rw [finishLoad_eq]
  split
  · exact SameBooks.foldl sameBooks_endAt ts _
  · exact SameBooks.refl _

theorem running_finishLoad (l : Ledger κ) (s : Signature κ) (seq : Nat) (ts : List (Target κ)) :
    (l.finishLoad s seq ts).running = l.running.filter fun n => ¬ n = seq :=
  (sameBooks_finishLoad l s seq ts).running

theorem seq_finishLoad (l : Ledger κ) (s : Signature κ) (seq : Nat) (ts : List (Target κ)) :
    (l.finishLoad s seq ts).seq = l.seq :=
  (sameBooks_finishLoad l s seq ts).seq

theorem isSuperseded_finishLoad (l : Ledger κ) (s : Signature κ) (seq : Nat)
    (ts : List (Target κ)) (k : κ) (n : Nat) :
    (l.finishLoad s seq ts).isSuperseded k n = l.isSuperseded k n :=
  (sameBooks_finishLoad l s seq ts).isSuperseded k n

theorem isInvalidated_finishLoad (l : Ledger κ) (s : Signature κ) (seq : Nat)
    (ts : List (Target κ)) (t : Target κ) (n : Nat) :
    (l.finishLoad s seq ts).isInvalidated t n = l.isInvalidated t n := by
  rw [(sameBooks_finishLoad l s seq ts).isInvalidated t n]
  cases t <;> rfl

/-- The end of a load takes away the entry to join only if that entry is the load's own. -/
theorem inFlight_finishLoad (l : Ledger κ) (s u : Signature κ) (seq : Nat)
    (ts : List (Target κ)) :
    (l.finishLoad s seq ts).inFlight.get? u
      = (l.inFlight.get? u).filter fun load => ¬ (s = u ∧ load.seq = seq) := by
  rw [(sameBooks_finishLoad l s seq ts).inFlight]
  unfold closeLoad
  dsimp only
  by_cases hu : s = u
  · subst hu
    cases hf : l.inFlight.get? s with
    | none => simp [hf]
    | some load => by_cases hs : load.seq = seq <;> simp [hf, hs, Option.filter]
  · have hkeep : (l.inFlight.get? u).filter (fun load => ¬ (s = u ∧ load.seq = seq))
        = l.inFlight.get? u := by
      cases l.inFlight.get? u <;> simp [hu, Option.filter]
    rw [hkeep]
    cases hf : l.inFlight.get? s with
    | none => rfl
    | some load => by_cases hs : load.seq = seq <;> simp [hs, hu]

theorem sameRecord_finishLoad (l : Ledger κ) (s : Signature κ) (seq : Nat) (ts : List (Target κ))
    (t : Target κ) : l.SameRecord (l.finishLoad s seq ts) t := by
  have hfold : ∀ (ts : List (Target κ)) (l : Ledger κ), l.SameRecord (ts.foldl endAt l) t := by
    intro ts
    induction ts with
    | nil => intro l; exact SameRecord.of_eq rfl
    | cons u ts ih => intro l; exact (sameRecord_endAt l u t).trans (ih (l.endAt u))
  have hclose : l.SameRecord (l.closeLoad s seq) t := SameRecord.of_eq rfl
  rw [finishLoad_eq]
  split
  · exact hclose.trans (hfold ts _)
  · exact hclose

theorem fresh_finishLoad (l : Ledger κ) (s : Signature κ) (seq : Nat) (ts : List (Target κ))
    (t : Target κ) : (l.finishLoad s seq ts).Fresh t ↔ l.Fresh t :=
  (sameRecord_finishLoad l s seq ts t).fresh

end Ledger

end Larder
