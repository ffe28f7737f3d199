import Larder.Proofs.Run

/-!
# The books of a cache at work

The ledger numbers loads and keeps stamps; the loads themselves are elsewhere. This file shows that
the two agree in every state a cache can come to, and draws the conclusion that the rest is built on:
for a load under way the books have neither lost nor invented anything. A key counts as written for
the load exactly if a step has touched it while the load was under way, and a target as invalidated
exactly if a step has overtaken the load there, however many steps have settled in between.
-/

namespace Larder.Busy

variable {κ ν : Type} [EntryKey κ]

/-! ## The invariant -/

/-- The books agree with the loads under way. -/
structure Sound (b : Busy κ ν) : Prop where
  /-- Loads are numbered in the order they start. -/
  ordered : b.pending.Pairwise fun l l' => l.seq < l'.seq
  /-- The numbers of loads have been drawn. -/
  drawn : ∀ l ∈ b.pending ++ b.broken, l.seq ≤ b.ledger.seq
  /-- A load under way has not broken off. -/
  apart : ∀ l ∈ b.pending, ∀ l' ∈ b.broken, l.seq ≠ l'.seq
  /-- The ledger knows which loads are under way. -/
  running : ∀ n, n ∈ b.ledger.running ↔ ∃ l ∈ b.pending, l.seq = n
  /-- For a load that is still to start, nothing is invalidated. -/
  blank : ∀ t n, b.ledger.seq ≤ n → b.ledger.isInvalidated t n = false

theorem sound_new (name : String) (policy : Policy κ ν) : Sound (new name policy) where
  ordered := List.Pairwise.nil
  drawn l h := absurd h List.not_mem_nil
  apart l h := absurd h List.not_mem_nil
  running n := by simp [new]
  blank t n _ := by cases t <;> simp [new, Ledger.isInvalidated, Ledger.isSuperseded, Ledger.later]

theorem Sound.drawn_pending {b : Busy κ ν} (hb : Sound b) {l : PendingLoad κ}
    (h : l ∈ b.pending) : l.seq ≤ b.ledger.seq :=
  hb.drawn l (List.mem_append_left _ h)

omit [EntryKey κ] in
theorem mem_without {ls : List (PendingLoad κ)} {l : PendingLoad κ} {n : Nat} :
    (l ∈ ls.filter fun l => ¬ l.seq = n) ↔ l ∈ ls ∧ ¬ l.seq = n := by
  simp

/-- Nothing that is noted under a drawn number counts for a load that is still to start. -/
theorem blank_of_turns {l l' : Ledger κ} {W : κ → Prop} {T : Target κ → Prop} {seq : Nat}
    (h : l.Turns l' W T seq) (hseq : seq ≤ l'.seq)
    (hl : ∀ t n, l'.seq ≤ n → l.isInvalidated t n = false) (t : Target κ) (n : Nat)
    (hn : l'.seq ≤ n) : l'.isInvalidated t n = false := by
  cases hi : l'.isInvalidated t n with
  | false => rfl
  | true =>
      rcases h.of_invalidated hi with hold | ⟨_, hlt⟩
      · rw [hl t n hn] at hold
        exact Bool.noConfusion hold
      · omega

/-! ### What one step keeps -/

theorem seq_le_step (b : Busy κ ν) (op : Op κ ν) : b.ledger.seq ≤ (b.step op).ledger.seq := by
  cases b.step_case op with
  | idle hl _ _ _ _ => exact Nat.le_of_eq (by rw [hl])
  | change W T hturns _ _ _ _ => rw [hturns.counter]; exact Nat.le_succ _
  | starts load _ _ hl _ _ _ _ => rw [hl, Ledger.seq_startLoad]; exact Nat.le_succ _
  | ends load _ W T hturns _ _ _ _ =>
      exact Nat.le_of_eq (by rw [hturns.counter, Ledger.seq_finishLoad])

section

variable {b : Busy κ ν} (hb : Sound b) (op : Op κ ν)

include hb

theorem Sound.ordered_step : (b.step op).pending.Pairwise fun l l' => l.seq < l'.seq := by
  cases b.step_case op with
  | idle _ hp _ _ _ => rw [hp]; exact hb.ordered
  | change W T _ hp _ _ _ => rw [hp]; exact hb.ordered
  | starts load hnum _ _ hp _ _ _ =>
      -- the new number is greater than all that were drawn before
      rw [hp, List.pairwise_append]
      refine ⟨hb.ordered, List.pairwise_singleton _ _, ?_⟩
      intro l h l' h'
      rw [List.mem_singleton.1 h', hnum]
      exact Nat.lt_succ_of_le (hb.drawn_pending h)
  | ends load _ W T _ hp _ _ _ => rw [hp]; exact hb.ordered.filter _

theorem Sound.drawn_step :
    ∀ l ∈ (b.step op).pending ++ (b.step op).broken, l.seq ≤ (b.step op).ledger.seq := by
  have hold : ∀ l ∈ b.pending ++ b.broken, l.seq ≤ (b.step op).ledger.seq :=
    fun l h => Nat.le_trans (hb.drawn l h) (seq_le_step b op)
  cases b.step_case op with
  | idle _ hp hbr _ _ => rw [hp, hbr]; exact hold
  | change W T _ hp hbr _ _ => rw [hp, hbr]; exact hold
  | starts load hnum _ hl hp hbr _ _ =>
      intro l h
      rw [hp, hbr, List.append_assoc, List.mem_append, List.mem_append, List.mem_singleton] at h
      rcases h with h | rfl | h
      · exact hold l (List.mem_append_left _ h)
      · rw [hl, Ledger.seq_startLoad]
        exact Nat.le_of_eq hnum
      · exact hold l (List.mem_append_right _ h)
  | ends load hloose W T _ hp hbr _ _ =>
      intro l h
      rcases List.mem_append.1 h with h | h
      · rw [hp, mem_without] at h
        exact hold l (List.mem_append_left _ h.1)
      · rcases hbr l h with h | rfl
        · exact hold l (List.mem_append_right _ h)
        · exact hold l hloose

theorem Sound.apart_step :
    ∀ l ∈ (b.step op).pending, ∀ l' ∈ (b.step op).broken, l.seq ≠ l'.seq := by
  cases b.step_case op with
  | idle _ hp hbr _ _ => rw [hp, hbr]; exact hb.apart
  | change W T _ hp hbr _ _ => rw [hp, hbr]; exact hb.apart
  | starts load hnum _ _ hp hbr _ _ =>
      intro l h l' h'
      rw [hbr] at h'
      rw [hp, List.mem_append, List.mem_singleton] at h
      rcases h with h | rfl
      · exact hb.apart l h l' h'
      · have := hb.drawn l' (List.mem_append_right _ h')
        omega
  | ends load _ W T _ hp hbr _ _ =>
      intro l h l' h'
      rw [hp, mem_without] at h
      -- what has just broken off was taken from the loads under way
      rcases hbr l' h' with h' | rfl
      · exact hb.apart l h.1 l' h'
      · exact h.2

theorem Sound.running_step (n : Nat) :
    n ∈ (b.step op).ledger.running ↔ ∃ l ∈ (b.step op).pending, l.seq = n := by
  cases b.step_case op with
  | idle hl hp _ _ _ => rw [hl, hp]; exact hb.running n
  | change W T hturns hp _ _ _ => rw [hturns.running, hp]; exact hb.running n
  | starts load _ _ hl hp _ _ _ =>
      rw [hp, hl, Ledger.running_startLoad, List.mem_append]
      show n ∈ b.ledger.running ∨ n ∈ [load.seq] ↔ _
      rw [hb.running]
      constructor
      · rintro (⟨l, h, hn⟩ | h)
        · exact ⟨l, List.mem_append_left _ h, hn⟩
        · exact ⟨load, List.mem_append_right _ List.mem_cons_self, (List.mem_singleton.1 h).symm⟩
      · rintro ⟨l, h, rfl⟩
        rw [List.mem_append, List.mem_singleton] at h
        rcases h with h | rfl
        · exact Or.inl ⟨l, h, rfl⟩
        · exact Or.inr List.mem_cons_self
  | ends load _ W T hturns hp _ _ _ =>
      rw [hp, hturns.running, Ledger.running_finishLoad, List.mem_filter, hb.running,
        decide_eq_true_eq]
      constructor
      · rintro ⟨⟨l, h, rfl⟩, hn⟩
        exact ⟨l, mem_without.2 ⟨h, hn⟩, rfl⟩
      · rintro ⟨l, h, rfl⟩
        rw [mem_without] at h
        exact ⟨⟨l, h.1, rfl⟩, h.2⟩

theorem Sound.blank_step (t : Target κ) (n : Nat) (hn : (b.step op).ledger.seq ≤ n) :
    (b.step op).ledger.isInvalidated t n = false := by
  -- a load that is to start after the step is to start after the state before it
  have hold : ∀ t n, (b.step op).ledger.seq ≤ n → b.ledger.isInvalidated t n = false :=
    fun t n hn => hb.blank t n (Nat.le_trans (seq_le_step b op) hn)
  cases b.step_case op with
  | idle hl _ _ _ _ =>
      rw [hl]
      exact hold t n hn
  | change W T hturns _ _ _ _ =>
      refine blank_of_turns hturns (Nat.le_of_eq hturns.counter.symm) (fun t n hn => ?_) t n hn
      rw [Ledger.isInvalidated_draw]
      exact hold t n hn
  | starts load _ _ hl _ _ _ _ =>
      rw [hl, Ledger.isInvalidated_startLoad, Ledger.isInvalidated_draw]
      exact hold t n hn
  | ends load hloose W T hturns _ _ _ _ =>
      have hdrawn : load.seq ≤ (b.step op).ledger.seq :=
        Nat.le_trans (hb.drawn load hloose) (seq_le_step b op)
      refine blank_of_turns hturns hdrawn (fun t n hn => ?_) t n hn
      rw [Ledger.isInvalidated_finishLoad]
      exact hold t n hn

/-- **The books agree with the loads after every step.** -/
theorem sound_step : Sound (b.step op) where
  ordered := hb.ordered_step op
  drawn := hb.drawn_step op
  apart := hb.apart_step op
  running := hb.running_step op
  blank := hb.blank_step op

end

theorem sound_run {b : Busy κ ν} (hb : Sound b) (ops : List (Op κ ν)) : Sound (b.run ops) := by
  induction ops generalizing b with
  | nil => exact hb
  | cons op ops ih => exact ih (sound_step hb op)

theorem sound_reachable {b : Busy κ ν} (hb : Reachable b) : Sound b := by
  induction hb with
  | init name policy => exact sound_new name policy
  | tail _ op ih => exact sound_step ih op

/-! ## The loads under way -/

/-- A number belongs to one load. -/
theorem Sound.eq_of_seq {b : Busy κ ν} (hb : Sound b) {l l' : PendingLoad κ} (h : l ∈ b.pending)
    (h' : l' ∈ b.pending) (hseq : l.seq = l'.seq) : l = l' := by
  have key : ∀ {ls : List (PendingLoad κ)}, ls.Pairwise (fun l l' => l.seq < l'.seq) →
      l ∈ ls → l' ∈ ls → l = l' := by
    intro ls hls hl hl'
    induction hls with
    | nil => exact absurd hl List.not_mem_nil
    | cons hhead _ ih =>
        rcases List.mem_cons.1 hl with rfl | hin
        · rcases List.mem_cons.1 hl' with rfl | hin'
          · rfl
          · have := hhead l' hin'
            omega
        · rcases List.mem_cons.1 hl' with rfl | hin'
          · have := hhead l hin
            omega
          · exact ih hin hin'
  exact key hb.ordered h h'

theorem Sound.pending?_eq {b : Busy κ ν} (hb : Sound b) {l : PendingLoad κ} (h : l ∈ b.pending) :
    b.pending? l.seq = some l := by
  cases hp : b.pending? l.seq with
  | none =>
      have := List.find?_eq_none.1 hp l h
      simp at this
  | some l' =>
      obtain ⟨hmem, hseq⟩ := pending?_spec hp
      rw [hb.eq_of_seq hmem h hseq]

theorem cache_step_commit {b : Busy κ ν} (hb : Sound b) {load : PendingLoad κ}
    (h : load ∈ b.pending) (now : Instant) (answer : Except Cause (List (κ × ν))) :
    (b.step (.commit load.seq now answer)).cache
      = (b.cache.commit b.name b.policy now load answer).cache := by
  rw [step_commit_of_some (hb.pending?_eq h)]

theorem Sound.mem_running {b : Busy κ ν} (hb : Sound b) {l : PendingLoad κ} (h : l ∈ b.pending) :
    l.seq ∈ b.ledger.running :=
  (hb.running l.seq).2 ⟨l, h, rfl⟩

theorem Sound.mem_running_finishLoad {b : Busy κ ν} (hb : Sound b) {l load : PendingLoad κ}
    (h : l ∈ b.pending) (hne : ¬ l.seq = load.seq) :
    l.seq ∈ (b.ledger.finishLoad load.signature load.seq load.targets).running := by
  rw [Ledger.running_finishLoad, List.mem_filter, decide_eq_true_eq]
  exact ⟨hb.mem_running h, hne⟩

/-- A load that is under way after a step was so before, or has started under a new number. -/
theorem mem_pending_step {b : Busy κ ν} {op : Op κ ν} {l : PendingLoad κ}
    (h : l ∈ (b.step op).pending) : l ∈ b.pending ∨ b.ledger.seq < l.seq := by
  cases b.step_case op with
  | idle _ hp _ _ _ => rw [hp] at h; exact Or.inl h
  | change W T _ hp _ _ _ => rw [hp] at h; exact Or.inl h
  | starts load hnum _ _ hp _ _ _ =>
      rw [hp, List.mem_append, List.mem_singleton] at h
      rcases h with h | rfl
      · exact Or.inl h
      · exact Or.inr (by omega)
  | ends load _ W T _ hp _ _ _ =>
      rw [hp, mem_without] at h
      exact Or.inl h.1

theorem mem_pending_run {b : Busy κ ν} {ops : List (Op κ ν)} {l : PendingLoad κ}
    (h : l ∈ (b.run ops).pending) : l ∈ b.pending ∨ b.ledger.seq < l.seq := by
  induction ops generalizing b with
  | nil => exact Or.inl h
  | cons op ops ih =>
      rcases ih h with h | hlt
      · exact mem_pending_step h
      · exact Or.inr (Nat.lt_of_le_of_lt (seq_le_step b op) hlt)

/-! ## What the books say to a load under way -/

/-- A step supersedes exactly the keys it touches. -/
theorem isSuperseded_step {b : Busy κ ν} (hb : Sound b) {op : Op κ ν} {l : PendingLoad κ}
    (h : l ∈ (b.step op).pending) (k : κ) :
    (b.step op).ledger.isSuperseded k l.seq = true
      ↔ b.ledger.isSuperseded k l.seq = true ∨ (l ∈ b.pending ∧ b.Touches k l.seq op) := by
  cases b.step_case op with
  | idle hl _ _ htouch _ =>
      rw [hl]
      simp [htouch]
  | change W T hturns hp _ htouch _ =>
      rw [hp] at h
      have hdrawn := hb.drawn_pending h
      rw [hturns.superseded (hb.mem_running h), Ledger.isSuperseded_draw, htouch]
      have hlt : l.seq < b.ledger.seq + 1 := by omega
      simp [h, hlt]
  | starts load _ _ hl _ _ htouch _ =>
      rw [hl, Ledger.isSuperseded_startLoad, Ledger.isSuperseded_draw]
      simp [htouch]
  | ends load _ W T hturns hp _ htouch _ =>
      rw [hp, mem_without] at h
      rw [hturns.superseded (hb.mem_running_finishLoad h.1 h.2), Ledger.isSuperseded_finishLoad, htouch]
      simp [h.1]

/-- A step invalidates exactly the targets at which it overtakes. -/
theorem isInvalidated_step {b : Busy κ ν} (hb : Sound b) {op : Op κ ν} {l : PendingLoad κ}
    (h : l ∈ (b.step op).pending) (t : Target κ) :
    (b.step op).ledger.isInvalidated t l.seq = true
      ↔ b.ledger.isInvalidated t l.seq = true ∨ (l ∈ b.pending ∧ b.Overtakes t l.seq op) := by
  cases b.step_case op with
  | idle hl _ _ _ hover =>
      rw [hl]
      simp [hover]
  | change W T hturns hp _ _ hover =>
      rw [hp] at h
      have hdrawn := hb.drawn_pending h
      rw [hturns.invalidated (hb.mem_running h), Ledger.isInvalidated_draw, hover]
      have hlt : l.seq < b.ledger.seq + 1 := by omega
      simp [h, hlt]
  | starts load _ _ hl _ _ _ hover =>
      rw [hl, Ledger.isInvalidated_startLoad, Ledger.isInvalidated_draw]
      simp [hover]
  | ends load _ W T hturns hp _ _ hover =>
      rw [hp, mem_without] at h
      rw [hturns.invalidated (hb.mem_running_finishLoad h.1 h.2), Ledger.isInvalidated_finishLoad, hover]
      simp [h.1]

theorem Sound.not_isSuperseded {b : Busy κ ν} (hb : Sound b) (k : κ) {n : Nat}
    (hn : b.ledger.seq ≤ n) : b.ledger.isSuperseded k n = false :=
  Bool.eq_false_iff.2
    (mt Ledger.isInvalidated_of_isSuperseded (Bool.eq_false_iff.1 (hb.blank (.key k) n hn)))

/-- What the ledger tells a load over a run, if the steps `P` are those that make it say so and it
says nothing to loads that are still to start. -/
theorem told_run (tells : Ledger κ → Nat → Bool) {P : Busy κ ν → Nat → Op κ ν → Prop}
    (hstep : ∀ {b : Busy κ ν}, Sound b → ∀ {op : Op κ ν} {l : PendingLoad κ},
      l ∈ (b.step op).pending → (tells (b.step op).ledger l.seq = true
        ↔ tells b.ledger l.seq = true ∨ (l ∈ b.pending ∧ P b l.seq op)))
    (hblank : ∀ {b : Busy κ ν}, Sound b → ∀ {n : Nat}, b.ledger.seq ≤ n → tells b.ledger n = false)
    {b : Busy κ ν} (hb : Sound b) {ops : List (Op κ ν)} {l : PendingLoad κ}
    (h : l ∈ (b.run ops).pending) :
    tells (b.run ops).ledger l.seq = true
      ↔ tells b.ledger l.seq = true ∨ Once (fun b op => l ∈ b.pending ∧ P b l.seq op) b ops := by
  induction ops generalizing b with
  | nil => simp [Once]
  | cons op ops ih =>
      rw [run_cons, ih (sound_step hb op) h, Once, ← or_assoc]
      refine or_congr_left ?_
      rcases mem_pending_run (b := b.step op) h with hmem | hlt
      · exact hstep hb hmem
      · -- the load is still to start, so neither side holds
        have hlt' : b.ledger.seq < l.seq := Nat.lt_of_le_of_lt (seq_le_step b op) hlt
        have hnot : l ∉ b.pending := by
          intro hmem
          have := hb.drawn_pending hmem
          omega
        rw [hblank (sound_step hb op) (Nat.le_of_lt hlt), hblank hb (Nat.le_of_lt hlt')]
        simp [hnot]

/-- **For a load under way a key is superseded exactly if some step has touched it meanwhile.** -/
theorem isSuperseded_run {b : Busy κ ν} (hb : Sound b) {ops : List (Op κ ν)} {l : PendingLoad κ}
    (h : l ∈ (b.run ops).pending) (k : κ) :
    (b.run ops).ledger.isSuperseded k l.seq = true
      ↔ b.ledger.isSuperseded k l.seq = true
        ∨ Once (fun b op => l ∈ b.pending ∧ b.Touches k l.seq op) b ops :=
  told_run (fun ledger n => ledger.isSuperseded k n)
    (fun hb _ _ h => isSuperseded_step hb h k) (fun hb _ => hb.not_isSuperseded k) hb h

/-- **And a target is invalidated exactly if some step has overtaken the load there.** -/
theorem isInvalidated_run {b : Busy κ ν} (hb : Sound b) {ops : List (Op κ ν)} {l : PendingLoad κ}
    (h : l ∈ (b.run ops).pending) (t : Target κ) :
    (b.run ops).ledger.isInvalidated t l.seq = true
      ↔ b.ledger.isInvalidated t l.seq = true
        ∨ Once (fun b op => l ∈ b.pending ∧ b.Overtakes t l.seq op) b ops :=
  told_run (fun ledger n => ledger.isInvalidated t n)
    (fun hb _ _ h => isInvalidated_step hb h t) (fun hb n => hb.blank t n) hb h

end Larder.Busy
