import Larder.Proofs.Coherence
import Larder.Proofs.Commit
import Larder.Proofs.FieldGroups
import Larder.Proofs.Leases
import Larder.Proofs.Purging
import Larder.Proofs.Syncing

/-!
# Who counts as a consumer

Two parts of a resource ask whether somebody uses a value. A purge goes through all the keys in use and
keeps whatever one of them stands for, be it by the value's own key, by a list or by an alias. The task
that keeps a value in step with a source asks for the value's own key only. So whoever uses the value by a
list or by an alias keeps it from being purged, and still does not get it refreshed when the source
changes: it stays outdated until somebody loads it.

Where the task does refresh, it does so well: it asks for the includes that the record has kept through
the marking, so that after the refresh the value is as fresh as it was before the source changed.
-/

namespace Larder

/-! ## Records that are marked outdated -/

/-- What is fresh for some includes was loaded with them. -/
theorem Ledger.coveredBy_of_fresh {κ : Type} [DecidableEq κ] {l : Ledger κ} {t : Target κ} {i : Includes}
    (h : l.isOutdated t i = false) : i.coveredBy (l.metaOf t).includes = true := by
  have hloaded := Ledger.isLoaded_of_not_isOutdated h
  rw [Ledger.isLoaded_eq, Bool.and_eq_true] at hloaded
  exact hloaded.2

namespace Cache

variable {κ ν : Type} [EntryKey κ]

/-- The record of what is marked outdated keeps its includes. -/
theorem includes_markOutdated (c : Cache κ ν) (k : κ) :
    ((c.markOutdated (.single k)).cache.ledger.metaOf (.key k)).includes
      = (c.ledger.metaOf (.key k)).includes := by
  have hmeta : (c.markOutdated (.single k)).cache.ledger.meta? (.key k)
      = (c.ledger.meta? (.key k)).map fun m => { m with outdated := true } := by
    show (Ledger.settle _).meta? _ = _
    rw [Ledger.meta?_settle]
    exact (Ledger.meta?_markOutdated _ _ _ _).trans (if_pos rfl)
  unfold Ledger.metaOf
  rw [hmeta]
  cases c.ledger.meta? (.key k) <;> rfl

end Cache

/-! ## Forced loads -/

namespace Busy

variable {κ ν : Type} [EntryKey κ] {b : Busy κ ν} {k : κ} {inc : Includes}

/-- A forced load of a key that may be loaded is under way, begun or joined, and nothing has invalidated
the key for it. -/
theorem start_forced (hb : Reachable b) (haccepts : b.policy.accepts k = true) (inc : Includes) :
    ∃ load ∈ (b.step (.start (.single k) inc true)).pending, load.signature = ⟨.single k, inc⟩
      ∧ (b.step (.start (.single k) inc true)).ledger.isInvalidated (.key k) load.seq = false
      ∧ ((b.cache.start b.name b.policy (.single k) inc true).result = .joined load.seq
        ∨ (b.cache.start b.name b.policy (.single k) inc true).result = .begun load) := by
  have hvalid : b.cache.rejection b.name b.policy (.single k) = none := by
    simp [Cache.rejection, Key.asAlias, Key.explicit, haccepts]
  have hstart : b.cache.start b.name b.policy (.single k) inc true = _ :=
    Cache.start_of_wanted hvalid (Or.inl rfl)
  cases hj : b.ledger.joinable? ⟨.single k, inc⟩ with
  | some seq =>
      rw [hj] at hstart
      obtain ⟨load, hload, hsig, rfl, hvalid⟩ := pending_of_joinable? hb hj
      have hstep : b.step (.start (.single k) inc true) = b := by rw [step_start, hstart]
      rw [hstep, hstart]
      exact ⟨load, hload, hsig, hvalid _ List.mem_cons_self, Or.inl rfl⟩
  | none =>
      rw [hj] at hstart
      have hbegun : (b.cache.start b.name b.policy (.single k) inc true).result
          = .begun (b.cache.nextLoad (.single k) inc) := by rw [hstart]
      obtain ⟨hsig, hpending, hseq⟩ := seq_of_begun hbegun
      have hblank := (sound_step (sound_reachable hb) (.start (.single k) inc true)).blank
      exact ⟨_, hpending, hsig, hblank _ _ (Nat.le_of_eq hseq.symm), Or.inr hbegun⟩

/-- The load of a key makes it fresh, if it succeeds and nothing has invalidated the key. -/
theorem fresh_of_succeeds (hb : Sound b) {load : PendingLoad κ} (hload : load ∈ b.pending)
    (hsig : load.signature = ⟨.single k, inc⟩)
    (hvalid : b.ledger.isInvalidated (.key k) load.seq = false) {now : Instant}
    {answer : Except Cause (List (κ × ν))} (hok : b.succeeds (.commit load.seq now answer) = true) :
    (b.step (.commit load.seq now answer)).ledger.isOutdated (.key k) inc = false := by
  have hok' : (b.run []).succeeds (.commit load.seq now answer) = true := hok
  obtain ⟨-, entries, rfl, hcomplete⟩ := complete_of_succeeds hb hload hok'
  unfold ledger
  rw [cache_step_commit hb hload]
  have hkey : Target.key k ∈ load.signature.key.requested := by
    rw [hsig]
    exact List.mem_cons_self
  have hfresh := Cache.isOutdated_commit b.name hcomplete hkey hvalid
  rw [hsig] at hfresh
  exact hfresh

end Busy

/-! ## The task and the others -/

namespace SyncMove

variable {κ ν μ : Type} [EntryKey κ]

/-- The move is not the task's. -/
def IsOthers : SyncMove κ ν μ → Prop
  | .sync => False
  | _ => True

/-- The move leaves both the task and the target alone. -/
def IsAside : SyncMove κ ν μ → Prop
  | .sync | .target _ => False
  | _ => True

theorem IsAside.isOthers {m : SyncMove κ ν μ} (h : m.IsAside) : m.IsOthers := by
  cases m with
  | sync => exact h
  | _ => trivial

end SyncMove

namespace Synced

variable {κ ν μ : Type} [EntryKey κ] {s : Synced κ ν μ} {pause : List (SyncMove κ ν μ)}

/-- The task goes on by one step, after some moves of others. -/
def resume (s : Synced κ ν μ) (pause : List (SyncMove κ ν μ)) : Synced κ ν μ :=
  (s.run pause).step .sync

theorem stage_run (h : ∀ m ∈ pause, m.IsOthers) : (s.run pause).stage = s.stage := by
  induction pause generalizing s with
  | nil => rfl
  | cons m pause ih =>
      refine (ih fun m' hm' => h m' (List.mem_cons_of_mem m hm')).trans ?_
      cases m with
      | sync => exact absurd (h _ List.mem_cons_self) not_false
      | _ => rfl

theorem target_run (h : ∀ m ∈ pause, m.IsAside) : (s.run pause).target = s.target := by
  induction pause generalizing s with
  | nil => rfl
  | cons m pause ih =>
      refine (ih fun m' hm' => h m' (List.mem_cons_of_mem m hm')).trans ?_
      cases m with
      | sync => exact absurd (h _ List.mem_cons_self) not_false
      | target op => exact absurd (h _ List.mem_cons_self) not_false
      | _ => rfl

/-- The target is in a state that it can come to, and its only key may be loaded. -/
def Ready (s : Synced κ ν μ) : Prop :=
  s.target.Reachable ∧ s.target.policy.accepts .only = true

theorem ready_step (h : s.Ready) (m : SyncMove κ ν μ) : (s.step m).Ready :=
  target_step_of (P := fun b => b.Reachable ∧ b.policy.accepts .only = true) h
    (fun op => ⟨h.1.tail op, (Busy.policy_step s.target op).symm ▸ h.2⟩) m

theorem ready_run (h : s.Ready) (moves : List (SyncMove κ ν μ)) : (s.run moves).Ready := by
  induction moves generalizing s with
  | nil => exact h
  | cons m moves ih => exact ih (ready_step h m)

theorem ready_resume (h : s.Ready) (pause : List (SyncMove κ ν μ)) : (s.resume pause).Ready :=
  ready_step (ready_run h pause) .sync

/-! ### The steps of the task -/

theorem step_noticed (h : s.stage = .noticed) :
    (s.step .sync).stage = .marked ∧ (s.step .sync).target = s.target.step (.markOutdated sole) := by
  constructor
  · show s.nextStage = _
    rw [nextStage, h]
  · rw [target_step, targetOp, taskOp, h]

theorem step_marked (h : s.stage = .marked) :
    (s.step .sync).stage = (if s.uses.isUsed sole then .used else .listening)
      ∧ (s.step .sync).target = s.target := by
  constructor
  · show s.nextStage = _
    rw [nextStage, h]
  · rw [target_step, targetOp, taskOp, h]

theorem step_used (h : s.stage = .used) :
    (s.step .sync).stage = .refreshing (s.target.ledger.metaOf (.key .only)).includes
      ∧ (s.step .sync).target = s.target := by
  constructor
  · show s.nextStage = _
    rw [nextStage, h]
  · rw [target_step, targetOp, taskOp, h]

/-- The refresh begins a load or joins one, and the task waits for it. -/
theorem step_refreshing {inc : Includes} (hready : s.Ready) (h : s.stage = .refreshing inc) :
    ∃ load ∈ (s.step .sync).target.pending, load.signature = ⟨sole, inc⟩
      ∧ (s.step .sync).target.ledger.isInvalidated (.key .only) load.seq = false
      ∧ (s.step .sync).stage = .awaiting load.seq := by
  have htarget : (s.step .sync).target = s.target.step (.start sole inc true) := by
    rw [target_step, targetOp, taskOp, h]
  obtain ⟨load, hload, hsig, hvalid, hresult⟩ := Busy.start_forced hready.1 hready.2 inc
  rw [htarget]
  refine ⟨load, hload, hsig, hvalid, ?_⟩
  show s.nextStage = _
  rw [nextStage, h]
  dsimp only [sole]
  rcases hresult with hresult | hresult <;> rw [hresult]

/-- Once somebody is known to use the target, the task goes on to a load of it, with the includes of its
record, and waits for that. -/
theorem refresh_of_used (hready : s.Ready) (h : s.stage = .used) (hothers : ∀ m ∈ pause, m.IsOthers) :
    let refreshed := (s.step .sync).resume pause
    ∃ load ∈ refreshed.target.pending,
      load.signature = ⟨sole, (s.target.ledger.metaOf (.key .only)).includes⟩
        ∧ refreshed.target.ledger.isInvalidated (.key .only) load.seq = false
        ∧ refreshed.stage = .awaiting load.seq :=
  step_refreshing (ready_run (ready_step hready .sync) pause) ((stage_run hothers).trans (step_used h).1)

/-- A task that listens does not wait for a load two steps later. -/
theorem not_awaiting_of_listening (h : s.stage = .listening) (hothers : ∀ m ∈ pause, m.IsOthers)
    {pause' : List (SyncMove κ ν μ)} (hothers' : ∀ m ∈ pause', m.IsOthers) (seq : Nat) :
    ((s.resume pause).resume pause').stage ≠ .awaiting seq := by
  have hheard : ((s.resume pause).run pause').stage = .listening
      ∨ ((s.resume pause).run pause').stage = .noticed := by
    rw [stage_run hothers']
    show (s.run pause).nextStage = _ ∨ (s.run pause).nextStage = _
    rw [nextStage, stage_run hothers, h]
    dsimp only
    split
    · exact Or.inr rfl
    · exact Or.inl rfl
  show ((s.resume pause).run pause').nextStage ≠ _
  rw [nextStage]
  rcases hheard with hheard | hheard
  · rw [hheard]
    dsimp only
    split <;> exact SyncStage.noConfusion
  · rw [hheard]
    exact SyncStage.noConfusion

/-! ### Being in use -/

/-- Somebody uses the target: a key in use stands for it. -/
def InUse (s : Synced κ ν μ) : Prop :=
  ∃ key ∈ s.uses.tracked, Sole.only ∈ s.target.cache.resolve key

/-- The target is used by its own key, by a list that is not empty, or by an alias that stands for it. -/
theorem inUse_iff : s.InUse ↔ s.uses.isUsed sole = true
    ∨ (∃ keys, keys ≠ [] ∧ s.uses.isUsed (.list keys) = true)
    ∨ ∃ a, s.uses.isUsed (.byAlias a) = true ∧ Sole.only ∈ s.target.cache.resolve (.byAlias a) := by
  unfold InUse
  simp only [Uses.mem_tracked]
  constructor
  · rintro ⟨key, hused, hin⟩
    cases key with
    | single k => exact Or.inl hused
    | list keys => exact Or.inr (Or.inl ⟨keys, List.ne_nil_of_mem hin, hused⟩)
    | byAlias a => exact Or.inr (Or.inr ⟨a, hused, hin⟩)
  · rintro (hused | ⟨keys, hne, hused⟩ | ⟨a, hused, hin⟩)
    · exact ⟨sole, hused, List.mem_cons_self⟩
    · obtain ⟨k, hk⟩ := List.exists_mem_of_ne_nil keys hne
      exact ⟨.list keys, hused, hk⟩
    · exact ⟨.byAlias a, hused, hin⟩

/-- A purge evicts the target exactly if nobody uses it and it has expired. -/
theorem only_mem_expired_iff (cutoff : Instant) :
    Sole.only ∈ s.target.cache.expired s.uses.tracked cutoff
      ↔ (s.target.cache.data.get? .only).isSome = true ∧ ¬ s.InUse
        ∧ s.target.cache.isExpired cutoff .only = true := by
  unfold InUse
  rw [Cache.mem_expired]
  simp only [not_exists, not_and]

/-! ### Refreshing -/

/-- The task, which is to look whether somebody uses the target, refreshes it. Whatever others do before
its next steps, these lead to a load of the target, begun or joined, with the includes that the record of
the target has when the task looks them up; and the task waits for that load. -/
def Refreshes (s : Synced κ ν μ) : Prop :=
  ∀ pause pause', (∀ m ∈ pause, m.IsOthers) → (∀ m ∈ pause', m.IsOthers) →
    let read := (s.step .sync).run pause
    let refreshed := (read.step .sync).resume pause'
    ∃ load ∈ refreshed.target.pending,
      load.signature = ⟨sole, (read.target.ledger.metaOf (.key .only)).includes⟩
        ∧ refreshed.stage = .awaiting load.seq

theorem refreshes_iff (hready : s.Ready) (hstage : s.stage = .marked) :
    s.Refreshes ↔ s.uses.isUsed sole = true := by
  obtain ⟨hnext, -⟩ := step_marked hstage
  constructor
  · intro hrefreshes
    by_contra hunused
    rw [if_neg hunused] at hnext
    obtain ⟨load, -, -, hawaiting⟩ := hrefreshes [] [] (List.forall_mem_nil _) (List.forall_mem_nil _)
    exact not_awaiting_of_listening hnext (List.forall_mem_nil _) (List.forall_mem_nil _) _ hawaiting
  · intro hused pause pause' hpause hpause' read refreshed
    rw [if_pos hused] at hnext
    have hread : read.stage = .used := (stage_run hpause).trans hnext
    obtain ⟨load, hload, hsig, -, hawaiting⟩ :=
      refresh_of_used (ready_run (ready_step hready .sync) pause) hread hpause'
    exact ⟨load, hload, hsig, hawaiting⟩

/-- If nothing else happens to the target, the load that the task waits for makes it as fresh as it was
before it was marked. -/
theorem fresh_of_refresh (hready : s.Ready) (hstage : s.stage = .noticed)
    {pause pause' pause'' last : List (SyncMove κ ν μ)} (hpause : ∀ m ∈ pause, m.IsAside)
    (hpause' : ∀ m ∈ pause', m.IsAside) (hpause'' : ∀ m ∈ pause'', m.IsAside)
    (hlast : ∀ m ∈ last, m.IsAside) {seq : Nat} {now : Instant}
    {answer : Except Cause (List (Sole × μ))} {i : Includes} :
    let waiting := ((((s.step .sync).resume pause).resume pause').resume pause'').run last
    waiting.stage = .awaiting seq → waiting.target.succeeds (.commit seq now answer) = true →
    s.target.cache.isOutdated sole i = false →
    (waiting.step (.target (.commit seq now answer))).target.cache.isOutdated sole i = false := by
  intro waiting hawaiting hok hfresh
  have hothers {pause : List (SyncMove κ ν μ)} (h : ∀ m ∈ pause, m.IsAside) : ∀ m ∈ pause, m.IsOthers :=
    fun m hm => (h m hm).isOthers
  obtain ⟨hnext, htarget⟩ := step_noticed hstage
  have hmarked : ((s.step .sync).run pause).stage = .marked := (stage_run (hothers hpause)).trans hnext
  obtain ⟨hasked, hkept⟩ := step_marked hmarked
  rw [stage_run (hothers hlast)] at hawaiting
  by_cases hused : ((s.step .sync).run pause).uses.isUsed sole = true
  · rw [if_pos hused] at hasked
    have hread : (((s.step .sync).resume pause).run pause').stage = .used :=
      (stage_run (hothers hpause')).trans hasked
    have hready' : (((s.step .sync).resume pause).run pause').Ready :=
      ready_run (ready_resume (ready_step hready .sync) pause) pause'
    obtain ⟨load, hload, hsig, hvalid, hseq⟩ := refresh_of_used hready' hread (hothers hpause'')
    -- the load that the task waits for is the one that the refresh led to
    obtain rfl : load.seq = seq := SyncStage.awaiting.inj (hseq.symm.trans hawaiting)
    -- up to the refresh the target was marked and no more, so its record has the includes that it had
    have htarget' : (((s.step .sync).resume pause).run pause').target
        = s.target.step (.markOutdated sole) :=
      (target_run hpause').trans (hkept.trans ((target_run hpause).trans htarget))
    have hincludes : ((s.target.step (.markOutdated sole)).ledger.metaOf (.key .only)).includes
        = (s.target.ledger.metaOf (.key .only)).includes :=
      s.target.cache.includes_markOutdated .only
    rw [htarget', hincludes] at hsig
    have hsame : waiting.target = ((((s.step .sync).resume pause).resume pause').resume pause'').target :=
      target_run hlast
    have hreachable : waiting.target.Reachable :=
      (ready_run (ready_resume (ready_step hready' .sync) pause'') last).1
    have hrenewed := Busy.fresh_of_succeeds (Busy.sound_reachable hreachable) (hsame ▸ hload) hsig
      (hsame ▸ hvalid) hok
    rw [Cache.isOutdated_single] at hfresh ⊢
    exact Ledger.isOutdated_of_coveredBy hrenewed (Ledger.coveredBy_of_fresh hfresh)
  · rw [if_neg hused] at hasked
    exact absurd hawaiting (not_awaiting_of_listening hasked (hothers hpause') (hothers hpause'') seq)

/--
**A value is refreshed for those who use it by its own key, and kept for all who use it.**

A sync begins with a source and a target that may have been at work before, and after any moves the task
has noticed a change of the source. It marks the target outdated. Whatever others do until it looks for
uses: it goes on to refresh the target exactly if the target's own key is in use. For a purge the target
is in use also by a list that is not empty, and by an alias that stands for it.

If there is a refresh, nothing else happens to the target, and the load succeeds, then the target is fresh
again for all the includes for which it was fresh before.
-/
theorem refreshes_iff_used_by_own_key (source : Busy κ ν) (earlier outbox : List (Event κ))
    {target : Busy Sole μ} (ht : target.Reachable) (haccepts : target.policy.accepts .only = true)
    (uses : Uses Sole) (moves : List (SyncMove κ ν μ))
    (hnoticed : ((begun source earlier outbox target uses).run moves).stage = .noticed) :
    let s := (begun source earlier outbox target uses).run moves
    let marked := s.step .sync
    marked.target = s.target.step (.markOutdated sole)
      ∧ (∀ pause, (∀ m ∈ pause, m.IsOthers) →
        let asked := marked.run pause
        (asked.Refreshes ↔ asked.uses.isUsed sole = true)
          ∧ (asked.InUse ↔ asked.uses.isUsed sole = true
            ∨ (∃ keys, keys ≠ [] ∧ asked.uses.isUsed (.list keys) = true)
            ∨ ∃ a, asked.uses.isUsed (.byAlias a) = true
              ∧ Sole.only ∈ asked.target.cache.resolve (.byAlias a))
          ∧ ∀ cutoff, Sole.only ∈ asked.target.cache.expired asked.uses.tracked cutoff
            ↔ (asked.target.cache.data.get? .only).isSome = true ∧ ¬ asked.InUse
              ∧ asked.target.cache.isExpired cutoff .only = true)
      ∧ ∀ pause pause' pause'' last, (∀ m ∈ pause, m.IsAside) → (∀ m ∈ pause', m.IsAside) →
        (∀ m ∈ pause'', m.IsAside) → (∀ m ∈ last, m.IsAside) →
        let waiting := (((marked.resume pause).resume pause').resume pause'').run last
        ∀ seq now answer i, waiting.stage = .awaiting seq →
          waiting.target.succeeds (.commit seq now answer) = true →
          s.target.cache.isOutdated sole i = false →
          (waiting.step (.target (.commit seq now answer))).target.cache.isOutdated sole i = false := by
  intro s marked
  have hready : s.Ready := ready_run ⟨ht, haccepts⟩ moves
  obtain ⟨hnext, htarget⟩ := step_noticed hnoticed
  refine ⟨htarget, fun pause hpause => ?_, ?_⟩
  · exact ⟨refreshes_iff (ready_run (ready_step hready _) pause) ((stage_run hpause).trans hnext),
      inUse_iff, only_mem_expired_iff⟩
  · intro pause pause' pause'' last hpause hpause' hpause'' hlast waiting seq now answer i
    exact fresh_of_refresh hready hnoticed hpause hpause' hpause'' hlast

/-- A target that has been loaded with one include. -/
def settings : Busy Sole Nat := (Busy.new "settings" {}).run
  [.start sole (Includes.ofList ["x"]) false, .commit 1 ⟨0, 0⟩ (.ok [(.only, 7)])]

theorem reachable_settings : settings.Reachable := (Busy.Reachable.init "settings" {}).run _

/-- The source is written to, and the task notices, while somebody uses the target under a key. -/
def noticing (key : Key Sole) : Synced String Nat Nat :=
  (begun (Busy.new "session" {}) [] [] settings {}).run
    [.use key 1, .source (.setMany ⟨0, 0⟩ [("a", 1)]), .publish 0, .sync]

/-- Somebody uses the target by its own key: it is refreshed, and fresh afterwards. -/
theorem refreshes_for_own_key :
    let marked := (noticing sole).step .sync
    let waiting := (((marked.resume []).resume []).resume []).run []
    marked.Refreshes ∧ marked.InUse
      ∧ (waiting.step (.target (.commit 3 ⟨1, 0⟩ (.ok [(.only, 8)])))).target.cache.isOutdated sole
        (Includes.ofList ["x"]) = false := by
  intro marked waiting
  obtain ⟨_, hasked, hfresh⟩ :=
    refreshes_iff_used_by_own_key (Busy.new "session" {} : Busy String Nat) [] [] reachable_settings rfl {}
      [.use sole 1, .source (.setMany ⟨0, 0⟩ [("a", 1)]), .publish 0, .sync] rfl
  obtain ⟨hrefreshes, hinUse, _⟩ := hasked [] (List.forall_mem_nil _)
  have hused : marked.uses.isUsed sole = true := rfl
  refine ⟨hrefreshes.2 hused, hinUse.2 (Or.inl hused), ?_⟩
  exact hfresh [] [] [] [] (List.forall_mem_nil _) (List.forall_mem_nil _) (List.forall_mem_nil _)
    (List.forall_mem_nil _) 3 ⟨1, 0⟩ (.ok [(.only, 8)]) _ rfl (by decide +kernel) (by decide +kernel)

/-- Somebody uses the target by a list: that keeps it from being purged, but it is not refreshed and stays
outdated. -/
theorem not_refreshed_for_list :
    let s := noticing (.list [.only])
    let marked := s.step .sync
    s.stage = .noticed ∧ s.target.cache.isOutdated sole (Includes.ofList ["x"]) = false
      ∧ marked.InUse ∧ (∀ cutoff, Sole.only ∉ marked.target.cache.expired marked.uses.tracked cutoff)
      ∧ ¬ marked.Refreshes ∧ (marked.step .sync).stage = .listening
      ∧ (marked.step .sync).target.cache.isOutdated sole (Includes.ofList ["x"]) = true := by
  intro s marked
  have hinUse : marked.InUse := inUse_iff.2 (Or.inr (Or.inl ⟨[.only], List.cons_ne_nil _ _, rfl⟩))
  have hready : marked.Ready := ready_step (ready_run ⟨reachable_settings, rfl⟩ _) _
  refine ⟨rfl, by decide +kernel, hinUse, fun cutoff hin => ?_, fun hrefreshes => ?_, rfl,
    by decide +kernel⟩
  · exact ((only_mem_expired_iff cutoff).1 hin).2.1 hinUse
  · exact absurd ((refreshes_iff hready rfl).1 hrefreshes) (by decide +kernel)

end Synced

end Larder
