import Larder.Proofs.Books
import Larder.Proofs.Entries

/-!
# What a newer answer settles

Some steps say of a key that it does not exist: the cache is made to hold other entries only, or a
load that answers for the key succeeds without it. A load that was already under way may still bring
the key. It is kept from doing so by a touch of the key since it started, and by nothing else.

To remove a cached entry is to touch it, so what such a step takes away stays away. A key that is not
cached when its absence is told is not touched, and neither is a key that was asked for by name.
-/

namespace Larder

/-- An answer for the key tells whether the concrete key exists: everything was asked for, or the
concrete key by its name. -/
def Key.Covers {κ : Type} (key : Key κ) (k : κ) : Prop :=
  key.isAll = true ∨ k ∈ key.explicit

namespace Cache

variable {κ ν : Type} [EntryKey κ]

/-- A single entry is written if the load does not pass over it and its merge succeeds. -/
theorem complete_commitWrites_single {c : Cache κ ν} {p : Policy κ ν} {load : PendingLoad κ} {k : κ}
    {v : ν} (habsent : c.data.get? k = none) (hs : c.ledger.isSuperseded k load.seq = false)
    (hv : p.merge none v ≠ none) (now : Instant) :
    (c.commitWrites p now load [(k, v)]).complete = true := by
  have hbase : ((c.finished load).removeAll (c.commitDrops load [(k, v)]) load.seq).data.get? k
      = none := by
    rw [data_removeAll fun h => (mem_commitDrops.1 h).2.2.1 List.mem_cons_self]
    exact habsent
  obtain ⟨merged, hmerged⟩ := Option.ne_none_iff_exists'.1 hv
  unfold commitWrites
  rw [writeLoaded, isSuperseded_commitBase, hs, write?, hbase, hmerged]
  rfl

end Cache

namespace Busy

variable {κ ν : Type} [EntryKey κ]

/-- The step says that the key does not exist: it makes the cache hold other entries, or it is the
successful commit of a load that answers for the key without it. -/
def ReportsAbsent (b : Busy κ ν) (k : κ) : Op κ ν → Prop
  | .replace _ entries => k ∉ entries.map Prod.fst
  | .commit seq now (.ok entries) =>
    b.succeeds (.commit seq now (.ok entries)) = true ∧ k ∉ entries.map Prod.fst
      ∧ ∃ load, b.pending? seq = some load ∧ load.signature.key.Covers k
  | _ => False

/-- The step answers for everything: it makes the cache hold exactly some entries, or it commits a
load of all entries. -/
def AnswersForAll (b : Busy κ ν) : Op κ ν → Prop
  | .replace _ _ => True
  | .commit seq _ _ => ∃ load, b.pending? seq = some load ∧ load.signature.key.isAll = true
  | _ => False

/-- The load is under way at the step and is older than what the step says: it started before the
load that the step commits, or else before the step. -/
def Predates (b : Busy κ ν) (load : PendingLoad κ) : Op κ ν → Prop
  | .commit seq _ _ => load ∈ b.pending ∧ load.seq < seq
  | _ => load ∈ b.pending

theorem Predates.pending {b : Busy κ ν} {load : PendingLoad κ} {op : Op κ ν}
    (h : b.Predates load op) : load ∈ b.pending := by
  cases op with
  | commit seq now answer => exact h.1
  | _ => exact h

/-- The step makes the key present, which was not. -/
def Revives (b : Busy κ ν) (k : κ) (op : Op κ ν) : Prop :=
  b.cache.data.get? k = none ∧ (b.step op).cache.data.get? k ≠ none

/-- Some step of the run has touched the key while the load was under way. -/
def TouchedDuring (b : Busy κ ν) (ops : List (Op κ ν)) (load : PendingLoad κ) (k : κ) : Prop :=
  Once (fun b op => load ∈ b.pending ∧ b.Touches k load.seq op) b ops

theorem isSuperseded_run_new {name : String} {policy : Policy κ ν} {ops : List (Op κ ν)}
    {load : PendingLoad κ} (h : load ∈ ((new name policy).run ops).pending) (k : κ) :
    ((new name policy).run ops).ledger.isSuperseded k load.seq = true
      ↔ (new name policy).TouchedDuring ops load k := by
  have hnew := sound_new name policy
  rw [isSuperseded_run hnew h, hnew.not_isSuperseded k (Nat.zero_le _)]
  simp [TouchedDuring]

/-- A load that is under way before a step and at the end of a run after it is so all along. -/
theorem Sound.mem_pending_step_of_run {b : Busy κ ν} (hb : Sound b) {load : PendingLoad κ}
    (hload : load ∈ b.pending) {op : Op κ ν} {ops : List (Op κ ν)}
    (h : load ∈ ((b.step op).run ops).pending) : load ∈ (b.step op).pending := by
  rcases mem_pending_run h with hmem | hlt
  · exact hmem
  · have hdrawn := hb.drawn_pending hload
    have hle := seq_le_step b op
    omega

/-- **An answer for everything that finds the key cached bars it from older loads.** Either it removes
the key, or the key was written since by something later still. -/
theorem isSuperseded_of_reportsAbsent {b : Busy κ ν} (hb : Sound b) {op : Op κ ν} {k : κ}
    (habsent : b.ReportsAbsent k op) (hall : b.AnswersForAll op)
    (hcached : b.cache.data.get? k ≠ none) {load : PendingLoad κ} (hold : b.Predates load op)
    (hload : load ∈ (b.step op).pending) :
    (b.step op).ledger.isSuperseded k load.seq = true := by
  have hsome : (b.cache.data.get? k).isSome = true := Option.isSome_iff_ne_none.2 hcached
  rw [isSuperseded_step hb hload]
  cases op with
  | replace now entries =>
      have hnot : b.ledger.isSuperseded k (b.ledger.seq + 1) = false :=
        hb.not_isSuperseded k (Nat.le_succ _)
      exact Or.inr ⟨hold, Or.inl (Cache.mem_stale.2 ⟨hsome, habsent, hnot⟩)⟩
  | commit seq now answer =>
      cases answer with
      | error cause => exact absurd habsent not_false
      | ok entries =>
          obtain ⟨_, hk, _⟩ := habsent
          obtain ⟨newer, hp, hisAll⟩ := hall
          obtain ⟨_, rfl⟩ := pending?_spec hp
          obtain ⟨hpending, hlt⟩ := hold
          cases hs : b.ledger.isSuperseded k newer.seq with
          | true => exact Or.inl (Ledger.isSuperseded_mono (Nat.le_of_lt hlt) hs)
          | false =>
              have hdrop : k ∈ b.cache.commitDrops newer entries :=
                Cache.mem_commitDrops.2 ⟨hisAll, hsome, hk, hs⟩
              exact Or.inr ⟨hpending, newer, hp, hlt, Or.inl hdrop⟩
  | _ => exact absurd habsent not_false

/-- A load does not make a key present that was touched since it started. -/
theorem not_revives_of_isSuperseded {b : Busy κ ν} (hb : Sound b) {load : PendingLoad κ}
    (hload : load ∈ b.pending) {k : κ} (hs : b.ledger.isSuperseded k load.seq = true)
    (now : Instant) (answer : Except Cause (List (κ × ν))) :
    ¬ b.Revives k (.commit load.seq now answer) := by
  rintro ⟨habsent, hpresent⟩
  rw [cache_step_commit hb hload, Cache.data_commit_of_superseded hs] at hpresent
  exact hpresent habsent

/-- A load that brings a value for a key that was not touched since it started makes it present. -/
theorem revives_of_not_isSuperseded {b : Busy κ ν} (hb : Sound b) {load : PendingLoad κ}
    (hload : load ∈ b.pending) {k : κ} (hs : b.ledger.isSuperseded k load.seq = false)
    (habsent : b.cache.data.get? k = none) {v : ν} (hv : b.policy.merge none v ≠ none)
    (now : Instant) : b.Revives k (.commit load.seq now (.ok [(k, v)])) := by
  refine ⟨habsent, ?_⟩
  rw [cache_step_commit hb hload]
  have hcomplete := Cache.complete_commitWrites_single habsent hs hv now
  exact Option.isSome_iff_ne_none.1
    (Cache.isSome_data_commit b.name hcomplete List.mem_cons_self hs)

/--
**What keeps an older load from bringing back a key that was reported absent.**

A step says that a key does not exist, and a load that is older than what the step says is still under
way afterwards. If the step answers for everything and finds the key cached, it touches the key. Once
the key was touched since the load started, no answer of the load makes it present. If it was not, and
is not there, every value that can be written does.
-/
theorem reported_absence_kept_iff (name : String) (policy : Policy κ ν) (before : List (Op κ ν))
    {op : Op κ ν} {k : κ} (habsent : ((new name policy).run before).ReportsAbsent k op)
    {load : PendingLoad κ} (hold : ((new name policy).run before).Predates load op)
    (after : List (Op κ ν))
    (hload : load ∈ ((new name policy).run (before ++ op :: after)).pending) :
    let b := (new name policy).run before
    let late := (new name policy).run (before ++ op :: after)
    let touched := (new name policy).TouchedDuring (before ++ op :: after) load k
    (b.AnswersForAll op → b.cache.data.get? k ≠ none → touched)
      ∧ (touched → ∀ now answer, ¬ late.Revives k (.commit load.seq now answer))
      ∧ (¬ touched → late.cache.data.get? k = none → ∀ now v, policy.merge none v ≠ none →
          late.Revives k (.commit load.seq now (.ok [(k, v)]))) := by
  intro b late touched
  have hnew := sound_new name policy
  have hlate : Sound late := sound_run hnew _
  have htouched : late.ledger.isSuperseded k load.seq = true ↔ touched :=
    isSuperseded_run_new hload k
  refine ⟨fun hall hcached => ?_, fun h => ?_, fun h hnone now v hv => ?_⟩
  · -- the touch of the step is seen right after it and is not forgotten later
    have hb : Sound b := sound_run hnew before
    have hrun : late = (b.step op).run after := run_append _ before (op :: after)
    have hstill : load ∈ ((b.step op).run after).pending := hrun ▸ hload
    have hnext := hb.mem_pending_step_of_run hold.pending hstill
    rw [← htouched, hrun, isSuperseded_run (sound_step hb op) hstill]
    exact Or.inl (isSuperseded_of_reportsAbsent hb habsent hall hcached hold hnext)
  · exact not_revives_of_isSuperseded hlate hload (htouched.2 h)
  · refine revives_of_not_isSuperseded hlate hload ?_ hnone ?_ now
    · exact Bool.eq_false_iff.2 fun hs => h (htouched.1 hs)
    · rw [show late.policy = policy from policy_run _ _]
      exact hv

/-- A key that is cached when the cache is made to hold nothing stays away, whatever the load of it
answers that was under way. -/
theorem reported_absence_kept_replace :
    let before : List (Op String Nat) :=
      [.setMany ⟨0, 0⟩ [("a", 1)], .start (.single "a") Includes.none true]
    let op : Op String Nat := .replace ⟨0, 0⟩ []
    let load : PendingLoad String := ⟨⟨.single "a", Includes.none⟩, 2, [.key "a"]⟩
    let b : Busy String Nat := (new "entries" {}).run before
    let late : Busy String Nat := (new "entries" {}).run (before ++ [op])
    b.ReportsAbsent "a" op ∧ b.Predates load op ∧ load ∈ late.pending
      ∧ b.AnswersForAll op ∧ b.cache.data.get? "a" ≠ none
      ∧ ∀ now answer, ¬ late.Revives "a" (.commit 2 now answer) := by
  intro before op load b late
  have habsent : b.ReportsAbsent "a" op := List.not_mem_nil
  have hold : b.Predates load op := List.mem_cons_self
  have hload : load ∈ late.pending := List.mem_cons_self
  have hcached : b.cache.data.get? "a" ≠ none := by decide +kernel
  have hkept := reported_absence_kept_iff "entries" {} before habsent hold [] hload
  exact ⟨habsent, hold, hload, trivial, hcached, hkept.2.1 (hkept.1 trivial hcached)⟩

/-- A key that is not cached is brought back by an older load, after each of the answers that report
it absent: the cache is made to hold nothing, a load of everything comes back empty, or a load of the
key by its name does. -/
theorem revived_after_reported_absent :
    let new : Busy String Nat := new "entries" {}
    let load : PendingLoad String := ⟨⟨.single "a", Includes.none⟩, 1, [.key "a"]⟩
    let start : Op String Nat := .start (.single "a") Includes.none false
    let late : Op String Nat := .commit 1 ⟨0, 0⟩ (.ok [("a", 7)])
    let replaced : Op String Nat := .replace ⟨0, 0⟩ []
    let answered : Op String Nat := .commit 2 ⟨0, 0⟩ (.ok [])
    let one := new.run [start]
    let all := new.run [start, .start Key.all Includes.none false]
    let named := new.run [start, .start (.list ["a"]) Includes.none false]
    (one.ReportsAbsent "a" replaced ∧ one.Predates load replaced
        ∧ (one.step replaced).Revives "a" late)
      ∧ (all.ReportsAbsent "a" answered ∧ all.Predates load answered
        ∧ (all.step answered).Revives "a" late)
      ∧ (named.ReportsAbsent "a" answered ∧ named.Predates load answered
        ∧ (named.step answered).Revives "a" late) := by
  intro new load start late replaced answered one all named
  refine ⟨⟨List.not_mem_nil, List.mem_cons_self, ?_⟩, ⟨⟨?_, List.not_mem_nil, _, rfl, Or.inl rfl⟩,
    ⟨List.mem_cons_self, by decide⟩, ?_⟩, ⟨⟨?_, List.not_mem_nil, _, rfl, Or.inr List.mem_cons_self⟩,
    ⟨List.mem_cons_self, by decide⟩, ?_⟩⟩
  · exact ⟨by decide +kernel, by decide +kernel⟩
  · decide +kernel
  · exact ⟨by decide +kernel, by decide +kernel⟩
  · decide +kernel
  · exact ⟨by decide +kernel, by decide +kernel⟩

end Busy

end Larder
