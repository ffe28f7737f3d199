import Larder.Proofs.Books

/-!
# Loads of one signature are run once

The ledger has one place for each signature, and a request joins the load it finds there. A load that
was overtaken loses its place to the next one and goes on running. So the places and the loads under
way do not agree one to one; what holds is weaker and enough: every place holds a load that is under
way, and every load under way has its place or was overtaken. Being overtaken is never undone, so the
load that nothing has overtaken is the one in the place, and there is no second.
-/

namespace Larder.Busy

variable {κ ν : Type} [EntryKey κ]

/-! ## Places -/

/-- The ledger says that the load was overtaken at one of its targets. -/
def Overrun (b : Busy κ ν) (load : PendingLoad κ) : Prop :=
  ∃ t ∈ load.targets, b.ledger.isInvalidated t load.seq = true

/-- The places of the ledger and the loads under way fit together. -/
structure Placed (b : Busy κ ν) : Prop where
  /-- A place holds a load that is under way. -/
  held : ∀ s e, b.ledger.inFlight.get? s = some e → ⟨s, e.seq, e.targets⟩ ∈ b.pending
  /-- A load under way was overtaken or has its place. -/
  place : ∀ load ∈ b.pending,
    b.Overrun load ∨ b.ledger.inFlight.get? load.signature = some ⟨load.seq, load.targets⟩

theorem placed_new (name : String) (policy : Policy κ ν) : Placed (new name policy) where
  held s e h := by simp [new] at h
  place load h := absurd h List.not_mem_nil

/-- A load that was overtaken stays so as long as it is under way. -/
theorem overrun_step {b : Busy κ ν} (hb : Sound b) {op : Op κ ν} {load : PendingLoad κ}
    (h : load ∈ (b.step op).pending) (hover : b.Overrun load) : (b.step op).Overrun load := by
  obtain ⟨t, ht, hi⟩ := hover
  exact ⟨t, ht, (isInvalidated_step hb h t).2 (Or.inl hi)⟩

/-- A load that is not new keeps its place or is overtaken, if only it does not lose the place. -/
theorem Placed.place_step {b : Busy κ ν} (hb : Sound b) (hp : Placed b) {op : Op κ ν}
    {load : PendingLoad κ} (hload : load ∈ (b.step op).pending) (hold : load ∈ b.pending)
    (hkeep : b.ledger.inFlight.get? load.signature = some ⟨load.seq, load.targets⟩ →
      b.Overrun load
        ∨ (b.step op).ledger.inFlight.get? load.signature = some ⟨load.seq, load.targets⟩) :
    (b.step op).Overrun load
      ∨ (b.step op).ledger.inFlight.get? load.signature = some ⟨load.seq, load.targets⟩ := by
  rcases hp.place load hold with hover | hin
  · exact Or.inl (overrun_step hb hload hover)
  · exact (hkeep hin).imp_left (overrun_step hb hload)

/-- **Places and loads fit together after every step.** -/
theorem placed_step {b : Busy κ ν} (hb : Sound b) (hp : Placed b) (op : Op κ ν) :
    Placed (b.step op) := by
  cases b.step_case op with
  | idle hl hpend _ _ _ =>
      refine ⟨?_, fun load hload => ?_⟩
      · rw [hl, hpend]; exact hp.held
      · refine hp.place_step hb hload (hpend ▸ hload) fun hin => Or.inr ?_
        rw [hl]; exact hin
  | change W T hturns hpend _ _ _ =>
      refine ⟨?_, fun load hload => ?_⟩
      · rw [hturns.inFlight, hpend]; exact hp.held
      · refine hp.place_step hb hload (hpend ▸ hload) fun hin => Or.inr ?_
        rw [hturns.inFlight]; exact hin
  | starts new hseq hjoin hl hpend _ _ _ =>
      have hin : ∀ s, (b.step op).ledger.inFlight.get? s
          = if new.signature = s then some ⟨new.seq, new.targets⟩ else b.ledger.inFlight.get? s := by
        intro s
        rw [hl, Ledger.inFlight_startLoad]
        exact Table.get?_set _ _ _ _
      refine ⟨fun s e he => ?_, fun load hload => ?_⟩
      · rw [hin] at he
        rw [hpend, List.mem_append, List.mem_singleton]
        split at he
        · rename_i hs
          cases he
          cases hs
          exact Or.inr rfl
        · exact Or.inl (hp.held s e he)
      · have hcases := hload
        rw [hpend, List.mem_append, List.mem_singleton] at hcases
        rcases hcases with hold | rfl
        · refine hp.place_step hb hload hold fun hplace => ?_
          by_cases hs : new.signature = load.signature
          · -- the new load takes the place only because this one could not be joined any more
            rw [hs] at hjoin
            exact Or.inl (Ledger.exists_isInvalidated_of_joinable? hjoin hplace)
          · right
            rw [hin, if_neg hs]
            exact hplace
        · right
          rw [hin, if_pos rfl]
  | ends load hloose W T hturns hpend _ _ _ =>
      have hin : ∀ s, (b.step op).ledger.inFlight.get? s
          = (b.ledger.inFlight.get? s).filter fun e => ¬ (load.signature = s ∧ e.seq = load.seq) := by
        intro s
        rw [hturns.inFlight]
        exact Ledger.inFlight_finishLoad _ _ _ _ _
      refine ⟨fun s e he => ?_, fun l hl => ?_⟩
      · rw [hin, Option.filter_eq_some_iff, decide_eq_true_eq] at he
        have hheld := hp.held s e he.1
        rw [hpend, mem_without]
        refine ⟨hheld, fun hseq => he.2 ⟨?_, hseq⟩⟩
        -- the entry bears the number of the load that ends, so it is that load's own
        rcases List.mem_append.1 hloose with hpending | hbroken
        · rw [← hb.eq_of_seq hheld hpending hseq]
        · exact absurd hseq (hb.apart _ hheld load hbroken)
      · obtain ⟨hold, hne⟩ := mem_without.1 (hpend ▸ hl)
        refine hp.place_step hb hl hold fun hplace => Or.inr ?_
        rw [hin, hplace, Option.filter_eq_some_iff, decide_eq_true_eq]
        exact ⟨rfl, fun h => hne h.2⟩

theorem placed_run {b : Busy κ ν} (hb : Sound b) (hp : Placed b) (ops : List (Op κ ν)) :
    Placed (b.run ops) := by
  induction ops generalizing b with
  | nil => exact hp
  | cons op ops ih => exact ih (sound_step hb op) (placed_step hb hp op)

theorem placed_reachable {b : Busy κ ν} (hb : Reachable b) : Placed b := by
  induction hb with
  | init name policy => exact placed_new name policy
  | tail hb op ih => exact placed_step (sound_reachable hb) ih op

/-! ## The load that nothing has overtaken -/

/-- Some step of the run has overtaken the load at one of its targets while it was under way. -/
def Overtaken (b : Busy κ ν) (ops : List (Op κ ν)) (load : PendingLoad κ) : Prop :=
  Once (fun b op => load ∈ b.pending ∧ ∃ t ∈ load.targets, b.Overtakes t load.seq op) b ops

theorem overtaken_iff {b : Busy κ ν} {ops : List (Op κ ν)} {load : PendingLoad κ} :
    b.Overtaken ops load ↔ ∃ t ∈ load.targets,
      Once (fun b op => load ∈ b.pending ∧ b.Overtakes t load.seq op) b ops := by
  unfold Overtaken
  induction ops generalizing b with
  | nil => simp [Once]
  | cons op ops ih =>
      simp only [Once, ih]
      constructor
      · rintro (⟨hmem, t, ht, hover⟩ | ⟨t, ht, hrest⟩)
        · exact ⟨t, ht, Or.inl ⟨hmem, hover⟩⟩
        · exact ⟨t, ht, Or.inr hrest⟩
      · rintro ⟨t, ht, ⟨hmem, hover⟩ | hrest⟩
        · exact Or.inl ⟨hmem, t, ht, hover⟩
        · exact Or.inr ⟨t, ht, hrest⟩

/-- **What the ledger calls overtaken is what has been overtaken.** -/
theorem overrun_iff_overtaken {name : String} {policy : Policy κ ν} {ops : List (Op κ ν)}
    {load : PendingLoad κ} (h : load ∈ ((new name policy).run ops).pending) :
    ((new name policy).run ops).Overrun load ↔ (new name policy).Overtaken ops load := by
  have hnew := sound_new name policy
  rw [overtaken_iff]
  unfold Overrun
  simp only [isInvalidated_run hnew h, hnew.blank _ _ (Nat.zero_le _), Bool.false_eq_true, false_or]

/-- The load is under way with a signature, and nothing has overtaken it since it started. -/
structure Live (b : Busy κ ν) (ops : List (Op κ ν)) (s : Signature κ) (load : PendingLoad κ) :
    Prop where
  /-- It has started and not ended. -/
  pending : load ∈ (b.run ops).pending
  /-- It loads what the signature says. -/
  signature : load.signature = s
  /-- None of its targets was invalidated, or written by anything later than it. -/
  notOvertaken : ¬ b.Overtaken ops load

section

variable {name : String} {policy : Policy κ ν} {ops : List (Op κ ν)} {s : Signature κ}
  {load load' : PendingLoad κ}

theorem Live.not_overrun (h : (new name policy).Live ops s load) :
    ¬ ((new name policy).run ops).Overrun load :=
  fun hover => h.notOvertaken ((overrun_iff_overtaken h.pending).1 hover)

/-- A live load has its place. -/
theorem Live.inFlight (h : (new name policy).Live ops s load) :
    ((new name policy).run ops).ledger.inFlight.get? s = some ⟨load.seq, load.targets⟩ := by
  have hplaced := placed_run (sound_new name policy) (placed_new name policy) ops
  rw [← h.signature]
  exact (hplaced.place load h.pending).resolve_left h.not_overrun

theorem Live.joinable (h : (new name policy).Live ops s load) :
    ((new name policy).run ops).ledger.joinable? s = some load.seq := by
  refine Ledger.joinable?_eq_some.2 ⟨_, h.inFlight, rfl, fun t ht => ?_⟩
  cases hi : ((new name policy).run ops).ledger.isInvalidated t load.seq with
  | false => rfl
  | true => exact absurd ⟨t, ht, hi⟩ h.not_overrun

end

/-- The second request joins the first load; after an invalidation the third starts one, which the
fourth joins. -/
example :
    let load : Op String Nat := .start (.single "a") Includes.none true
    ((new "entries" {}).run [load, load, .markOutdated (.single "a"), load, load]).pending.map
      PendingLoad.seq = [1, 3] := by
  decide +kernel

end Larder.Busy
