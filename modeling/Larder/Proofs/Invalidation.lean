import Larder.Proofs.Books

/-!
# An invalidation sticks

A target that was invalidated is outdated for every request until it is loaded anew or written. What
could undo that is a load that was already under way: it may still bring data for the target, but it
does not make the target fresh, because its number is smaller than that of the invalidation. Two facts
are carried along a run, and each needs the other: the target is not fresh, and for every one of those
loads that has not ended the target still counts as invalidated.
-/

namespace Larder

/-- The key by which a target is asked for. -/
def Target.address {κ : Type} : Target κ → Key κ
  | .key k => .single k
  | .named a => .byAlias a

namespace Busy

variable {κ ν : Type} [EntryKey κ]

/-! ## What makes a target fresh -/

/-- The step writes the target locally. Making the cache hold exactly some entries writes the alias
for all too. -/
def WritesLocally (b : Busy κ ν) (t : Target κ) : Op κ ν → Prop
  | .setMany _ entries => t ∈ (Cache.writtenKeys b.policy entries b.cache.data).map Target.key
  | .replace now entries =>
    t ∈ (b.cache.replaceWrites b.policy entries).map Target.key
      ∨ (t = .named Alias.all ∧ (b.cache.replace b.policy now entries).result = true)
  | _ => False

/-- The step commits the load, and the load marks the target as loaded: it writes the target or was
asked for it, and the target was not invalidated since the load started. A commit that breaks off has
marked what it wrote until then. -/
def Marks (b : Busy κ ν) (load : PendingLoad κ) (t : Target κ) : Op κ ν → Prop
  | .commit seq now (.ok entries) =>
    b.pending? seq = some load ∧ t ∈ b.cache.answers b.policy now load entries
      ∧ b.ledger.isInvalidated t load.seq = false
  | _ => False

/-- **Nothing becomes fresh but by a local write or by a load that marks it.** -/
theorem fresh_of_step {b : Busy κ ν} {op : Op κ ν} {t : Target κ}
    (h : (b.step op).ledger.Fresh t) :
    b.ledger.Fresh t ∨ b.WritesLocally t op ∨ ∃ load, b.Marks load t op := by
  cases op with
  | setMany now entries =>
      rcases Cache.fresh_of_setMany h with hw | hf
      · exact Or.inr (Or.inl hw)
      · exact Or.inl hf
  | replace now entries =>
      rcases Cache.fresh_of_replace h with hw | hall | hf
      · exact Or.inr (Or.inl (Or.inl hw))
      · exact Or.inr (Or.inl (Or.inr hall))
      · exact Or.inl hf
  | update k f => exact Or.inl (Cache.fresh_of_update h)
  | delete key => exact Or.inl (Cache.fresh_of_delete h)
  | clear => exact absurd h (b.cache.not_fresh_clear t)
  | markOutdated key => exact Or.inl (Cache.fresh_of_markOutdated h).2
  | markAllOutdated => exact absurd h (b.cache.not_fresh_markAllOutdated t)
  | purge tracked cutoff => exact Or.inl (Cache.fresh_of_purge h)
  | register name r => exact Or.inl h
  | start key inc force => exact Or.inl (Cache.fresh_of_start h)
  | commit seq now answer =>
      cases hp : b.pending? seq with
      | none => rw [step_commit_of_none hp] at h; exact Or.inl h
      | some load =>
          rw [step_commit_of_some hp] at h
          change (b.cache.commit b.name b.policy now load answer).cache.ledger.Fresh t at h
          cases answer with
          | error cause => exact Or.inl (Cache.fresh_of_commit_error h)
          | ok entries =>
              rcases Cache.fresh_of_commit_ok h with ⟨hmem, hi⟩ | hf
              · exact Or.inr (Or.inr ⟨load, hp, hmem, hi⟩)
              · exact Or.inl hf
  | abort seq =>
      cases hl : b.loose? seq with
      | none => rw [step_abort_of_none hl] at h; exact Or.inl h
      | some load =>
          rw [step_abort_of_some hl] at h
          change (b.cache.abort b.name load).cache.ledger.Fresh t at h
          exact Or.inl (Cache.fresh_of_abort h)

/-! ## What an invalidation leaves behind -/

theorem not_fresh_of_invalidates {b : Busy κ ν} {t : Target κ} {op : Op κ ν}
    (h : b.Invalidates t op) : ¬ (b.step op).ledger.Fresh t := by
  intro hf
  cases op with
  | markOutdated key => exact (Cache.fresh_of_markOutdated hf).1 h
  | markAllOutdated => exact b.cache.not_fresh_markAllOutdated t hf
  | purge tracked cutoff =>
      obtain ⟨rfl, he⟩ := h
      exact Cache.not_fresh_purge he hf
  | _ => exact h

/-- The target is not fresh, and the loads that were under way at one time will not make it so. -/
structure Barred (b : Busy κ ν) (old : List (PendingLoad κ)) (t : Target κ) : Prop where
  /-- The target is outdated for every request. -/
  stale : ¬ b.ledger.Fresh t
  /-- The loads have started. -/
  drawn : ∀ load ∈ old, load.seq ≤ b.ledger.seq
  /-- For those that have not ended, the target counts as invalidated. -/
  invalidated : ∀ load ∈ b.pending, load ∈ old → b.ledger.isInvalidated t load.seq = true

/-- An invalidation bars its target from all loads under way. -/
theorem barred_of_invalidates {b : Busy κ ν} (hb : Sound b) {t : Target κ} {op : Op κ ν}
    (h : b.Invalidates t op) : (b.step op).Barred (b.step op).pending t := by
  refine ⟨not_fresh_of_invalidates h, fun load => (sound_step hb op).drawn_pending, ?_⟩
  intro load hload _
  have hold : load ∈ b.pending := by
    cases op with
    | markOutdated key => exact hload
    | markAllOutdated => exact hload
    | purge tracked cutoff => exact hload
    | _ => exact absurd h not_false
  exact (isInvalidated_step hb hload t).2 (Or.inr ⟨hold, Or.inl h⟩)

/-- The bar stays through every step that neither writes the target locally nor marks it by a load
that started later. -/
theorem barred_step {b : Busy κ ν} (hb : Sound b) {old : List (PendingLoad κ)} {t : Target κ}
    (h : b.Barred old t) {op : Op κ ν} (hwrite : ¬ b.WritesLocally t op)
    (hmark : ∀ load, load ∉ old → ¬ b.Marks load t op) : (b.step op).Barred old t := by
  refine ⟨?_, ?_, ?_⟩
  · intro hfresh
    rcases fresh_of_step hfresh with hf | hw | ⟨load, hm⟩
    · exact h.stale hf
    · exact hwrite hw
    · by_cases hold : load ∈ old
      · -- a load that was under way then finds the target invalidated and does not mark it
        cases op with
        | commit seq now answer =>
            cases answer with
            | error cause => exact hm
            | ok entries =>
                obtain ⟨hp, _, hi⟩ := hm
                rw [h.invalidated load (pending?_spec hp).1 hold] at hi
                exact Bool.noConfusion hi
        | _ => exact hm
      · exact hmark load hold hm
  · intro load hold
    exact Nat.le_trans (h.drawn load hold) (seq_le_step b op)
  · intro load hload hold
    rcases mem_pending_step hload with hmem | hlt
    · exact (isInvalidated_step hb hload t).2 (Or.inl (h.invalidated load hmem hold))
    · have := h.drawn load hold
      omega

theorem barred_run {b : Busy κ ν} (hb : Sound b) {old : List (PendingLoad κ)} {t : Target κ}
    (h : b.Barred old t) {ops : List (Op κ ν)}
    (hquiet : Along (fun b op => ¬ b.WritesLocally t op ∧ ∀ load, load ∉ old → ¬ b.Marks load t op)
      b ops) : (b.run ops).Barred old t := by
  induction ops generalizing b with
  | nil => exact h
  | cons op ops ih =>
      obtain ⟨⟨hwrite, hmark⟩, hrest⟩ := hquiet
      exact ih (sound_step hb op) (barred_step hb h hwrite hmark) hrest

theorem isOutdated_address {c : Cache κ ν} {t : Target κ} {inc : Includes}
    (h : c.ledger.isOutdated t inc = true) : c.isOutdated t.address inc = true := by
  cases t with
  | key k => exact (c.isOutdated_single k inc).trans h
  | named a => simp [Cache.isOutdated, Target.address, Key.asAlias, h]

/--
**An invalidation sticks.**

Once a target is invalidated, it stays outdated for every request, until it is written locally or a
load that started after the invalidation marks it. The loads that were under way at the invalidation
may commit in any order.
-/
theorem invalidation_sticks {b : Busy κ ν} (hb : Reachable b) {t : Target κ} {op : Op κ ν}
    (hinv : b.Invalidates t op) {ops : List (Op κ ν)}
    (hquiet : Along (fun b' op' => ¬ b'.WritesLocally t op'
      ∧ ∀ load, load ∉ (b.step op).pending → ¬ b'.Marks load t op') (b.step op) ops)
    (inc : Includes) :
    ((b.step op).run ops).ledger.isOutdated t inc = true
      ∧ ((b.step op).run ops).cache.isOutdated t.address inc = true := by
  have hsound := sound_reachable hb
  have hbarred := barred_run (sound_step hsound op) (barred_of_invalidates hsound hinv) hquiet
  have hout := Ledger.isOutdated_of_not_fresh hbarred.stale inc
  exact ⟨hout, isOutdated_address hout⟩

/-- A load that was under way at the invalidation commits, and its key is outdated all the same. -/
theorem invalidation_sticks_late :
    let b : Busy String Nat := (new "entries" {}).step (.start (.single "a") Includes.none false)
    let op : Op String Nat := .markOutdated (.single "a")
    let ops : List (Op String Nat) := [.commit 1 ⟨0, 0⟩ (.ok [("a", 7)])]
    Reachable b ∧ b.Invalidates (.key "a") op
      ∧ Along (fun b' op' => ¬ b'.WritesLocally (.key "a") op'
          ∧ ∀ load, load ∉ (b.step op).pending → ¬ b'.Marks load (.key "a") op') (b.step op) ops
      ∧ ((b.step op).run ops).cache.data.get? "a" = some 7
      ∧ ((b.step op).run ops).ledger.isOutdated (.key "a") Includes.none = true := by
  intro b op ops
  have hb : Reachable b := (Reachable.init _ _).tail _
  have hinv : b.Invalidates (.key "a") op := List.mem_cons_self
  have hquiet : Along (fun b' op' => ¬ b'.WritesLocally (.key "a") op'
      ∧ ∀ load, load ∉ (b.step op).pending → ¬ b'.Marks load (.key "a") op') (b.step op) ops := by
    refine ⟨⟨not_false, fun load hnot hm => ?_⟩, trivial⟩
    exact hnot (pending?_spec hm.1).1
  exact ⟨hb, hinv, hquiet, rfl, (invalidation_sticks hb hinv hquiet Includes.none).1⟩

/-- It takes no successful commit to make a key fresh again: a load that breaks off at one entry has
marked the entries before it. -/
theorem fresh_after_broken_commit :
    let b : Busy String Nat := new "entries" { merge := fun _ n => if n = 0 then none else some n }
    let op : Op String Nat := .markOutdated (.single "a")
    let ops : List (Op String Nat) :=
      [.start (.list ["a", "b"]) Includes.none false, .commit 2 ⟨0, 0⟩ (.ok [("a", 7), ("b", 0)])]
    b.Invalidates (.key "a") op
      ∧ Along (fun b op => ¬ b.WritesLocally (.key "a") op ∧ b.succeeds op = false) (b.step op) ops
      ∧ ((b.step op).run ops).ledger.isOutdated (.key "a") Includes.none = false := by
  intro b op ops
  refine ⟨List.mem_cons_self, ⟨⟨not_false, rfl⟩, ⟨not_false, ?_⟩, trivial⟩, ?_⟩
  · decide +kernel
  · decide +kernel

end Busy

end Larder
