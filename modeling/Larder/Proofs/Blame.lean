import Larder.Proofs.Delivery
import Larder.Proofs.Failures

/-!
# Old failures and newer answers

Two loads of the same thing may be under way, and the older one may fail after the newer one has come
back. What is known by then is newer than the failure, and so it is after a local write, a deletion or a
clearing. `Busy.Supplants` lists the steps that supplant, in this sense, the older loads of a target.

A step that supplants the loads of a key nearly always touches the key, and a key that was touched since
the load started is not blamed. The exception is a newer answer that leaves the key out: it marks the key as
loaded, but touches it only if everything was asked for and the key was cached. Aliases are not touched
by anything.
-/

namespace Larder

namespace Busy

variable {κ ν : Type} [EntryKey κ]

/-- The step makes what is known of the target newer than the loads under way. For a key it writes or
removes it, for an alias it deletes what that stands for, and for the one for all it makes the cache hold
exactly some entries; clearing does so for everything. A load that succeeds supplants the others at what
it was asked for and what it brings, and at every key if everything was asked for. -/
def Supplants (b : Busy κ ν) : Target κ → Op κ ν → Prop
  | _, .clear => True
  | t, .commit seq now (.ok entries) =>
    b.succeeds (.commit seq now (.ok entries)) = true
      ∧ ∃ newer, b.pending? seq = some newer ∧ (t ∈ newer.signature.key.requested
        ∨ ∃ k, t = .key k ∧ (newer.signature.key.isAll = true ∨ k ∈ entries.map Prod.fst))
  | .key k, op => b.Touches k 0 op
  | .named a, .replace _ _ => a = Alias.all
  | .named a, .delete key => key.asAlias = some a
  | .named _, _ => False

/-- A failure is held against whom the load blames, and takes the place of what was held before. -/
theorem failureOf_step_failed {b : Busy κ ν} (hb : Reachable b) {load : PendingLoad κ}
    (hload : load ∈ b.pending) (now : Instant) (cause : Cause) (t : Target κ) :
    (b.step (.commit load.seq now (.error cause))).ledger.failureOf t
      = if Cache.blames b.ledger load.signature load.seq t
        then some (.load b.name load.signature.key.shown cause) else b.ledger.failureOf t := by
  unfold Ledger.failureOf
  rw [meta?_step_failed hb hload]
  by_cases hblames : Cache.blames b.ledger load.signature load.seq t = true
  · obtain ⟨m, hm⟩ := exists_meta_of_requested hb hload (mem_requested_of_blames hblames)
    rw [if_pos hblames, if_pos hblames, hm]
    rfl
  · rw [if_neg hblames, if_neg hblames]
    cases b.ledger.meta? t <;> rfl

/-- **What supplants a load bars its failure from the key,** unless it is no more than the news that the
key is missing. -/
theorem isSuperseded_of_supplants {b : Busy κ ν} (hb : Sound b) {op : Op κ ν} {load : PendingLoad κ}
    (hold : b.Predates load op) (hload : load ∈ (b.step op).pending) {k : κ}
    (hnews : b.Supplants (.key k) op)
    (hfound : b.ReportsAbsent k op → b.AnswersForAll op ∧ b.cache.data.get? k ≠ none) :
    (b.step op).ledger.isSuperseded k load.seq = true := by
  by_cases habsent : b.ReportsAbsent k op
  · obtain ⟨hall, hcached⟩ := hfound habsent
    exact isSuperseded_of_reportsAbsent hb habsent hall hcached hold hload
  · rw [isSuperseded_step hb hload]
    cases op with
    | commit seq now answer =>
        cases answer with
        | error cause => exact absurd hnews not_false
        | ok entries =>
            obtain ⟨hok, newer, hp, hcovers⟩ := hnews
            obtain ⟨hpending, hlt⟩ := hold
            obtain ⟨hnewer, rfl⟩ := pending?_spec hp
            have hcomplete := complete_of_success hb hnewer hok
            -- who answers for the key and does not report it absent brings it
            have hbrings : k ∈ entries.map Prod.fst := by
              refine Decidable.byContradiction fun hk => ?_
              refine habsent ⟨hok, hk, newer, hp, ?_⟩
              rcases hcovers with hasked | ⟨j, hj, hall | hbrings⟩
              · exact Or.inr (Key.key_mem_requested.1 hasked)
              · exact Or.inl hall
              · cases hj
                exact absurd hbrings hk
            cases hs : b.ledger.isSuperseded k newer.seq with
            | true => exact Or.inl (Ledger.isSuperseded_mono (Nat.le_of_lt hlt) hs)
            | false =>
                have hwrites := (Cache.mem_commitWrites hcomplete).2 ⟨hbrings, hs⟩
                exact Or.inr ⟨hpending, newer, hp, hlt, Or.inr hwrites⟩
    | _ => exact Or.inr ⟨hold, hnews⟩

/-- What bars a key right after a step is a touch that is seen from the end of the run. -/
theorem touchedDuring_of_isSuperseded {name : String} {policy : Policy κ ν} {before after : List (Op κ ν)}
    {op : Op κ ν} {load : PendingLoad κ}
    (hload : load ∈ ((new name policy).run (before ++ op :: after)).pending) {k : κ}
    (h : (((new name policy).run before).step op).ledger.isSuperseded k load.seq = true) :
    (new name policy).TouchedDuring (before ++ op :: after) load k := by
  rw [← isSuperseded_run_new hload k]
  have hb : Sound ((new name policy).run before) := sound_run (sound_new name policy) before
  rw [run_append] at hload ⊢
  exact (isSuperseded_run (sound_step hb op) hload k).2 (Or.inl h)

/--
**Which old failures hide newer answers.**

A step supplants a load at something that it was asked for, and the load is still under way. If it fails
then, a key keeps the failure it has or none, provided the key was touched since the load started; every
such step touches the key, except for the news that the key is missing when there was nothing to remove.
A key that was not touched has the old failure held against it. So has an alias, whatever the step.
-/
theorem old_failure_recorded_iff (name : String) (policy : Policy κ ν) (before : List (Op κ ν))
    {op : Op κ ν} {load : PendingLoad κ} (hold : ((new name policy).run before).Predates load op)
    {t : Target κ} (ht : t ∈ load.signature.key.requested)
    (hnews : ((new name policy).run before).Supplants t op) (after : List (Op κ ν))
    (hload : load ∈ ((new name policy).run (before ++ op :: after)).pending) (now : Instant)
    (cause : Cause) :
    let b := (new name policy).run before
    let late := (new name policy).run (before ++ op :: after)
    let late' := late.step (.commit load.seq now (.error cause))
    let touched := (new name policy).TouchedDuring (before ++ op :: after) load
    (∀ k, t = .key k →
        (b.ReportsAbsent k op → b.AnswersForAll op ∧ b.cache.data.get? k ≠ none) → touched k)
      ∧ (∀ k, t = .key k → touched k → late'.ledger.failureOf t = late.ledger.failureOf t)
      ∧ ((∀ k, t = .key k → ¬ touched k) →
        late'.ledger.failureOf t = some (.load late.name load.signature.key.shown cause)) := by
  intro b late late' touched
  have hb : Sound b := sound_run (sound_new name policy) before
  have hlate : Reachable late := (Reachable.init name policy).run _
  have hfailure : late'.ledger.failureOf t = _ := failureOf_step_failed hlate hload now cause t
  have hblames := blames_iff hload t
  refine ⟨?_, ?_, fun h => ?_⟩
  · rintro k rfl hfound
    have hrun : ((b.step op).run after).pending = late.pending :=
      congrArg Busy.pending (run_append _ before (op :: after)).symm
    have hnext := hb.mem_pending_step_of_run hold.pending (hrun.symm ▸ hload)
    exact touchedDuring_of_isSuperseded hload (isSuperseded_of_supplants hb hold hnext hnews hfound)
  · rintro k rfl htouched
    have hspared := mt hblames.1 fun h => h.2 htouched
    rw [hfailure, if_neg hspared]
  · have hblamed : (new name policy).Blames (before ++ op :: after) load t := by
      cases t with
      | key k => exact ⟨Key.key_mem_requested.1 ht, h k rfl⟩
      | named a => exact Key.named_mem_requested.1 ht
    rw [hfailure, if_pos (hblames.2 hblamed)]

/-- A key is written while a load of it is under way; the load fails, and the key has no failure. -/
theorem old_failure_recorded_written :
    let before : List (Op String Nat) := [.start (.single "a") Includes.none false]
    let op : Op String Nat := .setMany ⟨0, 0⟩ [("a", 1)]
    let load : PendingLoad String := ⟨⟨.single "a", Includes.none⟩, 1, [.key "a"]⟩
    let b : Busy String Nat := (new "entries" {}).run before
    let late : Busy String Nat := (new "entries" {}).run (before ++ [op])
    b.Predates load op ∧ .key "a" ∈ load.signature.key.requested ∧ b.Supplants (.key "a") op
      ∧ load ∈ late.pending
      ∧ (late.step (.commit 1 ⟨0, 0⟩ (.error (.plain "offline")))).ledger.failureOf (.key "a") = none := by
  intro before op load b late
  have hold : b.Predates load op := List.mem_cons_self
  have ht : .key "a" ∈ load.signature.key.requested := List.mem_cons_self
  have hnews : b.Supplants (.key "a") op := List.mem_cons_self
  have hload : load ∈ late.pending := List.mem_cons_self
  have hkept := old_failure_recorded_iff "entries" {} before hold ht hnews [] hload ⟨0, 0⟩
    (.plain "offline")
  have htouched := hkept.1 "a" rfl fun h => absurd h not_false
  exact ⟨hold, ht, hnews, hload, (hkept.2.1 "a" rfl htouched).trans rfl⟩

/-- Three times an old failure is held against what is known better: an alias that was cleared, an alias
that a newer load has answered for, and a key that a newer load has found missing. -/
theorem old_failure_over_newer_answer :
    let new : Busy String Nat := new "entries" {}
    let start (key : Key String) (inc : Includes) : Op String Nat := .start key inc false
    let x := Includes.ofList ["x"]
    let fail : Op String Nat := .commit 1 ⟨0, 0⟩ (.error (.plain "offline"))
    let answered : Op String Nat := .commit 2 ⟨0, 0⟩ (.ok [("a", 1)])
    let empty : Op String Nat := .commit 2 ⟨0, 0⟩ (.ok [])
    let all : PendingLoad String := ⟨⟨Key.all, Includes.none⟩, 1, [.named Alias.all]⟩
    let one : PendingLoad String := ⟨⟨.single "b", Includes.none⟩, 1, [.key "b"]⟩
    let loading := new.run [start Key.all Includes.none]
    let twice := new.run [start Key.all Includes.none, start Key.all x]
    let named := new.run [start (.single "b") Includes.none, start (.list ["b"]) Includes.none]
    (loading.Predates all .clear ∧ loading.Supplants (.named Alias.all) .clear
        ∧ ((loading.step .clear).ledger.failureOf (.named Alias.all)).isNone = true
        ∧ (((loading.step .clear).step fail).ledger.failureOf (.named Alias.all)).isSome = true)
      ∧ (twice.Predates all answered ∧ twice.Supplants (.named Alias.all) answered
        ∧ ((twice.step answered).ledger.failureOf (.named Alias.all)).isNone = true
        ∧ (((twice.step answered).step fail).ledger.failureOf (.named Alias.all)).isSome = true)
      ∧ (named.Predates one empty ∧ named.Supplants (.key "b") empty
        ∧ ((named.step empty).ledger.failureOf (.key "b")).isNone = true
        ∧ (((named.step empty).step fail).ledger.failureOf (.key "b")).isSome = true) := by
  intro new start x fail answered empty all one loading twice named
  refine ⟨⟨List.mem_cons_self, trivial, ?_, ?_⟩,
    ⟨⟨List.mem_cons_self, by decide⟩, ⟨?_, _, rfl, Or.inl List.mem_cons_self⟩, ?_, ?_⟩,
    ⟨⟨List.mem_cons_self, by decide⟩, ⟨?_, _, rfl, Or.inl List.mem_cons_self⟩, ?_, ?_⟩⟩
  all_goals decide +kernel

end Busy

end Larder
