import Larder.Proofs.Joining
import Larder.Proofs.Outcome
import Larder.Resource
import Mathlib.Data.List.Nodup

/-!
# What a wish to load comes to

Whoever wishes to load a key waits for a result. It is there at once if the key is refused or fresh;
otherwise it is that of the load which the wish has begun or joined. A cache keeps no results, so beside
a cache at work there is a list of the loads that have ended, each with what those get who wait for it.

The loads under way, those that broke off and those that have ended make up all loads that are known.
A step takes a load from one of the three to another and may add a new one, and that is all:
`known_step`. So a number stands for one load for good, and whoever waits for a number gets the result
of a load of the key and the includes that were asked for.
-/

namespace Larder

/-- Loads that have ended, each with its result. -/
abbrev Ended (κ : Type) := List (PendingLoad κ × LoadResult)

/-- The load that a step has ended, with its result. A commit that broke off ends nothing: the result
comes with the cleaning up. -/
def Outcome.ended {κ : Type} : Outcome κ → Option (PendingLoad κ × LoadResult)
  | .committed load .success => some (load, .ok ())
  | .committed load (.failure f) => some (load, .error f)
  | .aborted load f => some (load, .error f)
  | _ => none

namespace Started

variable {κ : Type}

/-- The number of the load to wait for, if there is one to wait for. -/
def seq? : Started κ → Option Nat
  | .joined seq => some seq
  | .begun load => some load.seq
  | _ => none

/-- The result of the wish, once it is there. -/
def result? (started : Started κ) (ended : Ended κ) : Option LoadResult :=
  match started with
  | .rejected f => some (.error f)
  | .fresh => some (.ok ())
  | .joined seq => (ended.find? fun e => e.1.seq = seq).map Prod.snd
  | .begun load => (ended.find? fun e => e.1.seq = load.seq).map Prod.snd

/-- If there is a load to wait for, it is one of `loads` and loads what the signature says. -/
def IsFor (started : Started κ) (s : Signature κ) (loads : List (PendingLoad κ)) : Prop :=
  ∀ seq, started.seq? = some seq → ∃ load ∈ loads, load.seq = seq ∧ load.signature = s

theorem IsFor.mono {started : Started κ} {s : Signature κ} {loads loads' : List (PendingLoad κ)}
    (h : started.IsFor s loads) (hsub : loads ⊆ loads') : started.IsFor s loads' := by
  intro seq hseq
  obtain ⟨load, hload, hrest⟩ := h seq hseq
  exact ⟨load, hsub hload, hrest⟩

/-- The result stems from the wish: it was there at once, or the load that was waited for came to it,
which is a load of the signature. -/
def Yields (started : Started κ) (s : Signature κ) (ended : Ended κ) (result : LoadResult) : Prop :=
  match started with
  | .rejected f => result = .error f
  | .fresh => result = .ok ()
  | .joined seq => ∃ load, (load, result) ∈ ended ∧ load.seq = seq ∧ load.signature = s
  | .begun load => ∃ load', (load', result) ∈ ended ∧ load'.seq = load.seq ∧ load'.signature = s

/-- A result that is there stays what it is. -/
theorem result?_append {started : Started κ} {ended : Ended κ} {result : LoadResult}
    (h : started.result? ended = some result) (later : Ended κ) :
    started.result? (ended ++ later) = some result := by
  have hfind : ∀ seq, (ended.find? fun e => e.1.seq = seq).map Prod.snd = some result →
      ((ended ++ later).find? fun e => e.1.seq = seq).map Prod.snd = some result := by
    intro seq hseq
    obtain ⟨e, he, hresult⟩ := Option.map_eq_some_iff.1 hseq
    rw [List.find?_append, he]
    exact congrArg some hresult
  cases started with
  | rejected f => exact h
  | fresh => exact h
  | joined seq => exact hfind seq h
  | begun load => exact hfind load.seq h

end Started

/-- What a wish has joined could be joined. -/
theorem Cache.joinable?_of_joined {κ ν : Type} [EntryKey κ] {c : Cache κ ν} {name : String}
    {p : Policy κ ν} {key : Key κ} {inc : Includes} {force : Bool} {seq : Nat}
    (h : (c.start name p key inc force).result = .joined seq) :
    c.ledger.joinable? ⟨key, inc⟩ = some seq := by
  unfold start at h
  cases hkey : c.rejection name p key with
  | some f =>
      rw [hkey] at h
      cases h
  | none =>
      simp only [hkey] at h
      split at h
      · cases h
      · cases hjoin : c.ledger.joinable? ⟨key, inc⟩ with
        | none =>
            rw [hjoin] at h
            cases h
        | some n =>
            rw [hjoin] at h
            cases h
            rfl

namespace Busy

variable {κ ν : Type} [EntryKey κ] {b : Busy κ ν} {ended : Ended κ}

/-- All loads that are known: under way, broken off and ended. -/
def known (b : Busy κ ν) (ended : Ended κ) : List (PendingLoad κ) :=
  b.pending ++ b.broken ++ ended.map Prod.fst

/-- A number stands for one load, and it has been drawn. -/
structure Accounted (b : Busy κ ν) (ended : Ended κ) : Prop where
  /-- No number stands for two loads. -/
  once : ((b.known ended).map PendingLoad.seq).Nodup
  /-- The numbers of loads have been drawn. -/
  drawn : ∀ load ∈ b.known ended, load.seq ≤ b.ledger.seq

theorem Accounted.eq_of_seq (h : b.Accounted ended) {load load' : PendingLoad κ}
    (hload : load ∈ b.known ended) (hload' : load' ∈ b.known ended) (hseq : load.seq = load'.seq) :
    load = load' :=
  List.inj_on_of_nodup_map h.once hload hload' hseq

/-- What the answer of a step says of loads. -/
theorem result_cases (b : Busy κ ν) (op : Op κ ν) :
    let o := (b.change op).result
    (o.pending b.pending = b.pending ∧ o.broken b.broken = b.broken ∧ o.ended = none)
      ∨ (∃ load, load.seq = b.ledger.seq + 1 ∧ o = .started (.begun load))
      ∨ (∃ load ∈ b.pending, ∃ c, o = .committed load c)
      ∨ ∃ load ∈ b.pending ++ b.broken, ∃ f, o = .aborted load f := by
  intro o
  cases op with
  | start key inc force =>
      have ho : o = .started (b.cache.start b.name b.policy key inc force).result := rfl
      rcases b.cache.start_cases b.name b.policy key inc force with ⟨_, hnone⟩ | ⟨_, hstart⟩
      · left
        rw [ho]
        cases hresult : (b.cache.start b.name b.policy key inc force).result with
        | begun load => exact absurd hresult (hnone load)
        | _ => exact ⟨rfl, rfl, rfl⟩
      · right; left
        rw [ho, hstart]
        exact ⟨b.cache.nextLoad key inc, rfl, rfl⟩
  | commit seq now answer =>
      cases hp : b.pending? seq with
      | none =>
          left
          have ho : o = .done := congrArg Change.result (change_commit_of_none hp now answer)
          rw [ho]
          exact ⟨rfl, rfl, rfl⟩
      | some load =>
          right; right; left
          exact ⟨load, (pending?_spec hp).1, _, congrArg Change.result (change_commit_of_some hp now answer)⟩
  | abort seq =>
      cases hl : b.loose? seq with
      | none =>
          left
          have ho : o = .done := congrArg Change.result (change_abort_of_none hl)
          rw [ho]
          exact ⟨rfl, rfl, rfl⟩
      | some load =>
          right; right; right
          exact ⟨load, (loose?_spec hl).1, _, congrArg Change.result (change_abort_of_some hl)⟩
  | _ => exact Or.inl ⟨rfl, rfl, rfl⟩

omit [EntryKey κ] in
/-- The load with a number, before the others. -/
theorem perm_cons_without {loads : List (PendingLoad κ)} (h : (loads.map PendingLoad.seq).Nodup)
    {load : PendingLoad κ} (hload : load ∈ loads) :
    loads.Perm (load :: loads.filter fun l => ¬ l.seq = load.seq) := by
  induction loads with
  | nil => exact absurd hload List.not_mem_nil
  | cons l loads ih =>
      obtain ⟨hhead, htail⟩ := List.nodup_cons.1 h
      rcases List.mem_cons.1 hload with rfl | hin
      · have hothers : ∀ l ∈ loads, ¬ l.seq = load.seq := fun l hl heq =>
          hhead (heq ▸ List.mem_map_of_mem hl)
        rw [List.filter_cons_of_neg (by simp), List.filter_eq_self.2]
        intro l hl
        exact decide_eq_true (hothers l hl)
      · have hne : ¬ l.seq = load.seq := fun heq => hhead (heq ▸ List.mem_map_of_mem hin)
        rw [List.filter_cons_of_pos (by simpa using hne)]
        exact ((ih htail hin).cons l).trans (List.Perm.swap load l _)

/-- **A step moves loads about and may add one; none is lost.** -/
theorem known_step (h : b.Accounted ended) (op : Op κ ν) :
    let known' := (b.step op).known (ended ++ (b.change op).result.ended.toList)
    known'.Perm (b.known ended)
      ∨ ∃ load ∈ (b.step op).pending, load.seq = b.ledger.seq + 1
          ∧ known'.Perm (load :: b.known ended) := by
  have hloose : ((b.pending ++ b.broken).map PendingLoad.seq).Nodup := by
    have honce := h.once
    unfold known at honce
    rw [List.map_append] at honce
    exact (List.nodup_append.1 honce).1
  have hpending : (b.pending.map PendingLoad.seq).Nodup := by
    rw [List.map_append] at hloose
    exact (List.nodup_append.1 hloose).1
  rw [step_eq]
  unfold known after
  dsimp only
  rcases b.result_cases op with ⟨hp, hb, he⟩ | ⟨load, hseq, ho⟩ | ⟨load, hload, c, ho⟩ |
    ⟨load, hload, f, ho⟩
  · -- nothing has started or ended
    left
    rw [hp, hb, he, Option.toList_none, List.append_nil]
  · -- a load has started
    right
    refine ⟨load, ?_, hseq, ?_⟩ <;> rw [ho]
    · exact List.mem_append_right b.pending (List.mem_singleton.2 rfl)
    show (b.pending ++ [load] ++ b.broken ++ (ended ++ []).map Prod.fst).Perm _
    rw [List.append_nil, List.append_assoc, List.append_assoc, List.append_assoc]
    exact List.perm_middle
  · -- a load was committed: it has ended, or it is broken now
    left
    rw [ho]
    have hmoved := perm_cons_without hpending hload
    have hover : ∀ result : LoadResult,
        ((b.pending.filter fun l => ¬ l.seq = load.seq) ++ b.broken
          ++ (ended ++ [(load, result)]).map Prod.fst).Perm
        (b.pending ++ b.broken ++ ended.map Prod.fst) := by
      intro result
      rw [List.map_append, ← List.append_assoc]
      exact (List.perm_append_singleton load _).trans
        ((hmoved.symm.append_right b.broken).append_right (ended.map Prod.fst))
    cases c with
    | success => exact hover _
    | failure f => exact hover _
    | brokenOff =>
        show ((b.pending.filter fun l => ¬ l.seq = load.seq) ++ (b.broken ++ [load])
          ++ (ended ++ []).map Prod.fst).Perm _
        rw [List.append_nil, ← List.append_assoc]
        exact ((List.perm_append_singleton load _).trans
          (hmoved.symm.append_right b.broken)).append_right (ended.map Prod.fst)
  · -- a load was cleaned up after, wherever it stood
    left
    rw [ho]
    show ((b.pending.filter fun l => ¬ l.seq = load.seq) ++ (b.broken.filter fun l => ¬ l.seq = load.seq)
      ++ (ended ++ [(load, Except.error f)]).map Prod.fst).Perm _
    rw [← List.filter_append, List.map_append, ← List.append_assoc]
    exact (List.perm_append_singleton load _).trans
      ((perm_cons_without hloose hload).symm.append_right (ended.map Prod.fst))

theorem accounted_step (hb : Sound b) (h : b.Accounted ended) (op : Op κ ν) :
    (b.step op).Accounted (ended ++ (b.change op).result.ended.toList) := by
  have hold : ∀ l ∈ b.known ended, l.seq ≤ (b.step op).ledger.seq := fun l hl =>
    Nat.le_trans (h.drawn l hl) (seq_le_step b op)
  rcases known_step h op with hperm | ⟨load, hload, hnew, hperm⟩
  · exact ⟨((hperm.map _).nodup_iff).2 h.once, fun l hl => hold l (hperm.mem_iff.1 hl)⟩
  · refine ⟨((hperm.map _).nodup_iff).2 (List.nodup_cons.2 ⟨fun hmem => ?_, h.once⟩), fun l hl => ?_⟩
    · obtain ⟨l, hl, heq⟩ := List.mem_map.1 hmem
      have := h.drawn l hl
      omega
    · rcases List.mem_cons.1 (hperm.mem_iff.1 hl) with rfl | hin
      · exact (sound_step hb op).drawn_pending hload
      · exact hold l hin

theorem known_subset_step (h : b.Accounted ended) (op : Op κ ν) :
    b.known ended ⊆ (b.step op).known (ended ++ (b.change op).result.ended.toList) := by
  intro l hl
  rcases known_step h op with hperm | ⟨load, _, _, hperm⟩
  · exact hperm.mem_iff.2 hl
  · exact hperm.mem_iff.2 (List.mem_cons_of_mem load hl)

/-- Of a cache that has come to be as it is, some loads have ended and nothing is lost by not asking
for them. -/
theorem accounted_reachable (hb : Reachable b) : b.Accounted [] := by
  have hall : ∃ ended, b.Accounted ended := by
    induction hb with
    | init name policy => exact ⟨[], List.nodup_nil, fun l hl => absurd hl List.not_mem_nil⟩
    | tail hb op ih =>
        obtain ⟨ended, h⟩ := ih
        exact ⟨_, accounted_step (sound_reachable hb) h op⟩
  obtain ⟨ended, h⟩ := hall
  have hsub : (b.known []).Sublist (b.known ended) :=
    (List.Sublist.refl _).append (List.nil_sublist _)
  exact ⟨h.once.sublist (hsub.map _), fun l hl => h.drawn l (hsub.subset hl)⟩

/-! ## Those who wait -/

/-- Whoever wishes to load a key waits for a load of that key and those includes. -/
theorem isFor_start (hb : Reachable b) (key : Key κ) (inc : Includes) (force : Bool) :
    (b.cache.start b.name b.policy key inc force).result.IsFor ⟨key, inc⟩
      (b.step (.start key inc force)).pending := by
  rw [step_start]
  intro seq hseq
  rcases b.cache.start_cases b.name b.policy key inc force with ⟨_, hnone⟩ | ⟨_, hstart⟩
  · cases hresult : (b.cache.start b.name b.policy key inc force).result with
    | begun load => exact absurd hresult (hnone load)
    | joined n =>
        rw [hresult] at hseq
        obtain ⟨load, hin, rfl, _⟩ :=
          Ledger.joinable?_eq_some.1 (Cache.joinable?_of_joined hresult)
        exact ⟨_, (placed_reachable hb).held _ load hin, Option.some.inj hseq, rfl⟩
    | _ =>
        rw [hresult] at hseq
        cases hseq
  · rw [hstart] at hseq ⊢
    exact ⟨b.cache.nextLoad key inc, List.mem_append_right _ (List.mem_singleton.2 rfl),
      Option.some.inj hseq, rfl⟩

/-- A result that is there stems from the wish. -/
theorem Accounted.yields (h : b.Accounted ended) {started : Started κ} {s : Signature κ}
    (hfor : started.IsFor s (b.known ended)) {result : LoadResult}
    (hresult : started.result? ended = some result) : started.Yields s ended result := by
  have hfind : ∀ seq, started.seq? = some seq →
      (ended.find? fun e => e.1.seq = seq).map Prod.snd = some result →
      ∃ load, (load, result) ∈ ended ∧ load.seq = seq ∧ load.signature = s := by
    intro seq hseq hmap
    obtain ⟨⟨load, result'⟩, he, rfl⟩ := Option.map_eq_some_iff.1 hmap
    have hmem := List.mem_of_find?_eq_some he
    have heq : load.seq = seq := by simpa using List.find?_some he
    have hknown : load ∈ b.known ended := List.mem_append_right _ (List.mem_map_of_mem hmem)
    obtain ⟨load', hload', hseq', hs⟩ := hfor seq hseq
    -- the number stands for one load, so what is found is what was asked for
    obtain rfl := h.eq_of_seq hload' hknown (hseq'.trans heq.symm)
    exact ⟨load', hmem, heq, hs⟩
  cases started with
  | rejected f => exact (Option.some.inj hresult).symm
  | fresh => exact (Option.some.inj hresult).symm
  | joined seq => exact hfind seq rfl hresult
  | begun load => exact hfind load.seq rfl hresult

/-- As long as there is no result, a load of what was wished for is under way, or has broken off and is
to be cleaned up after. -/
theorem exists_loose_of_result? {started : Started κ} {s : Signature κ}
    (hfor : started.IsFor s (b.known ended)) (hresult : started.result? ended = none) :
    ∃ load ∈ b.pending ++ b.broken, started.seq? = some load.seq ∧ load.signature = s := by
  have hfind : ∀ seq, started.seq? = some seq →
      (ended.find? fun e => e.1.seq = seq).map Prod.snd = none →
      ∃ load ∈ b.pending ++ b.broken, started.seq? = some load.seq ∧ load.signature = s := by
    intro seq hseq hnone
    obtain ⟨load, hload, rfl, hs⟩ := hfor seq hseq
    rcases List.mem_append.1 hload with hloose | hended
    · exact ⟨load, hloose, hseq, hs⟩
    · obtain ⟨e, he, rfl⟩ := List.mem_map.1 hended
      have hnot := List.find?_eq_none.1 (Option.map_eq_none_iff.1 hnone) e he
      exact absurd (decide_eq_true rfl) hnot
  cases started with
  | rejected f => cases hresult
  | fresh => cases hresult
  | joined seq => exact hfind seq rfl hresult
  | begun load => exact hfind load.seq rfl hresult

end Busy

end Larder
