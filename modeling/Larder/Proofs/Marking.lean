import Larder.Proofs.Delivery
import Larder.Proofs.Stock

/-!
# What a commit marks

A load that succeeds answers for the keys of its entries, for the keys it was asked for by name, whether
they came or not, and for the alias it was asked for. All of these are marked as loaded with its includes,
except keys that were superseded and whatever was invalidated since it started.

A key may be marked more than once in one commit: for every entry it has, and once more because it was
asked for. The second time it is found fresh, and its includes add up with those of the load, which
they have already. So to be marked twice is to be marked once, and what the record says of includes
depends on whether the key was fresh before the commit, and not on what the commit has done to it.
-/

namespace Larder

theorem Target.named_not_mem_map {κ : Type} (a : Alias) (ks : List κ) :
    .named a ∉ ks.map Target.key := by
  intro hmem
  obtain ⟨k, _, hk⟩ := List.mem_map.1 hmem
  cases hk

theorem Key.named_mem_requested {κ : Type} {key : Key κ} {a : Alias} :
    .named a ∈ key.requested ↔ key.asAlias = some a := by
  cases key <;> simp [requested, explicit, asAlias, eq_comm]

/-- Who asks for everything names no key. -/
theorem Key.explicit_of_isAll {κ : Type} {key : Key κ} (h : key.isAll = true) : key.explicit = [] := by
  cases key with
  | byAlias a => rfl
  | _ => cases h

namespace Cache

variable {κ ν : Type} [EntryKey κ] {c : Cache κ ν} {p : Policy κ ν} {now : Instant}
  {load : PendingLoad κ} {entries : List (κ × ν)} {t : Target κ}

/-- What a load answers for with some entries: the keys of the entries and those it was asked for by
name, except those that were superseded since it started, and the alias it was asked for. -/
def AnswersFor (c : Cache κ ν) (load : PendingLoad κ) (entries : List (κ × ν)) : Target κ → Prop
  | .key k => (k ∈ entries.map Prod.fst ∨ k ∈ load.signature.key.explicit)
      ∧ c.ledger.isSuperseded k load.seq = false
  | .named a => load.signature.key.asAlias = some a

/-- Unless it was invalidated, what a load answers for is what it has written or was asked for. -/
theorem answersFor_iff (hc : (c.commitWrites p now load entries).complete = true)
    (hi : c.ledger.isInvalidated t load.seq = false) :
    c.AnswersFor load entries t ↔ t ∈ (c.commitWrites p now load entries).keys.map Target.key
      ∨ t ∈ load.signature.key.requested := by
  cases t with
  | key k =>
      have hs : c.ledger.isSuperseded k load.seq = false := by
        rw [Bool.eq_false_iff]
        intro hs
        rw [Ledger.isInvalidated_of_isSuperseded hs] at hi
        cases hi
      rw [Target.key_mem_map, mem_commitWrites hc, Key.key_mem_requested]
      simp only [AnswersFor, hs, and_true]
  | named a =>
      rw [Key.named_mem_requested]
      exact (or_iff_right (Target.named_not_mem_map a _)).symm

/-! ## Before the entries are written -/

/-- Of a key that is removed nothing is left but the loads that run. -/
theorem metaOf_removeAll_of_mem {ks : List κ} {k : κ} (hk : k ∈ ks) (seq : Nat) (c : Cache κ ν) :
    ((c.removeAll ks seq).ledger.metaOf (.key k)).atRest = {} := by
  induction ks generalizing c with
  | nil => exact absurd hk List.not_mem_nil
  | cons j ks ih =>
      rw [removeAll_cons]
      by_cases hin : k ∈ ks
      · exact ih hin (c.remove j seq)
      · -- the first key was the one asked for, and nothing brings its record back
        obtain rfl : k = j := (List.mem_cons.1 hk).resolve_right hin
        rw [Ledger.metaOf_congr (meta?_removeAll (mt Target.key_mem_map.1 hin) seq _)]
        show ((c.ledger.forget k).metaOf (.key k)).atRest = {}
        rw [Ledger.metaOf_forget, if_pos rfl]
        rfl

/-- A record that is not removed is, apart from the loads that run, as it was. -/
theorem atRest_commitBase (ht : t ∉ (c.commitDrops load entries).map Target.key) :
    ((c.commitBase load entries).ledger.metaOf t).atRest = (c.ledger.metaOf t).atRest := by
  rw [Ledger.metaOf_congr (meta?_removeAll ht load.seq (c.finished load))]
  have hsame : c.ledger.SameRecord (c.finished load).ledger t :=
    Ledger.sameRecord_finishLoad c.ledger _ _ _ t
  rw [hsame.metaOf]
  rfl

/-! ## The marks -/

/-- Writing the entries marks the keys that are written. -/
theorem metaOf_commitWrites (c : Cache κ ν) (p : Policy κ ν) (now : Instant) (load : PendingLoad κ)
    (entries : List (κ × ν)) (t : Target κ) :
    (c.commitWrites p now load entries).cache.ledger.metaOf t
      = if t ∈ (c.commitWrites p now load entries).keys.map Target.key
            ∧ c.ledger.isInvalidated t load.seq = false
        then ((c.commitBase load entries).ledger.metaOf t).afterLoad load.signature.includes now
        else (c.commitBase load entries).ledger.metaOf t := by
  cases t with
  | key k =>
      simp only [Target.key_mem_map, ← isInvalidated_commitBase c load entries]
      exact metaOf_writeLoaded p now load.signature.includes load.seq entries _ k
  | named a =>
      have hkey := Target.named_not_mem_map a (c.commitWrites p now load entries).keys
      rw [if_neg fun h => hkey h.1]
      exact Ledger.metaOf_congr (meta?_writeLoaded hkey)

/-- A commit that succeeds marks what it has written or was asked for, once. -/
theorem metaOf_commit (name : String) (hc : (c.commitWrites p now load entries).complete = true)
    (t : Target κ) :
    (c.commit name p now load (.ok entries)).cache.ledger.metaOf t
      = if (t ∈ (c.commitWrites p now load entries).keys.map Target.key
            ∨ t ∈ load.signature.key.requested) ∧ c.ledger.isInvalidated t load.seq = false
        then ((c.commitBase load entries).ledger.metaOf t).afterLoad load.signature.includes now
        else (c.commitBase load entries).ledger.metaOf t := by
  rcases ledger_commit_ok c name p now load entries with ⟨hbroken, _⟩ | ⟨_, hl⟩
  · rw [hc] at hbroken
    cases hbroken
  · rw [hl, Ledger.metaOf_settle, metaOf_markAnswered, isInvalidated_commitWrites, metaOf_commitWrites]
    cases c.ledger.isInvalidated t load.seq with
    | true => simp
    | false =>
        by_cases hwritten : t ∈ (c.commitWrites p now load entries).keys.map Target.key
        · -- written, it is fresh by now; to be asked for as well changes nothing more
          by_cases hasked : t ∈ load.signature.key.requested
          · simp only [hwritten, hasked, and_self, or_self, if_true, EntryMeta.afterLoad_afterLoad]
          · simp only [hwritten, hasked, false_and, and_self, or_false, if_true, if_false]
        · simp only [hwritten, false_and, false_or, if_false]

end Cache

namespace Busy

variable {κ ν : Type} [EntryKey κ]

/--
**What a commit marks.**

A load under way commits successfully. What it answers for and was not invalidated since it started is
loaded and fresh afterwards, without a failure and loaded now; it has the includes of the load, together
with those it had if it was fresh before. What was invalidated keeps its record, and so does everything
the load does not answer for, except for the keys that are gone with a load of everything: they have
no record any more. The count of running loads is left out of all this.
-/
theorem commit_marks {b : Busy κ ν} (hb : Reachable b) {load : PendingLoad κ}
    (hload : load ∈ b.pending) {now : Instant} {entries : List (κ × ν)}
    (hok : b.succeeds (.commit load.seq now (.ok entries)) = true) (t : Target κ) :
    let commit : Op κ ν := .commit load.seq now (.ok entries)
    let inc := load.signature.includes
    let before := (b.ledger.metaOf t).atRest
    let after := ((b.step commit).ledger.metaOf t).atRest
    let gone := fun k => (b.cache.data.get? k).isSome = true
      ∧ ((b.step commit).cache.data.get? k).isNone = true
    (b.cache.AnswersFor load entries t → b.ledger.isInvalidated t load.seq = false →
        after = { loaded := true, outdated := false, loading := 0,
                  includes := if before.loaded && !before.outdated then before.includes.union inc
                    else inc
                  failure := none, loadedAt := some now })
      ∧ (b.cache.AnswersFor load entries t → b.ledger.isInvalidated t load.seq = true →
        after = before)
      ∧ (¬ b.cache.AnswersFor load entries t → (∀ k, t = .key k → ¬ gone k) → after = before)
      ∧ (∀ k, t = .key k → gone k → load.signature.key.isAll = true ∧ after = {}) := by
  intro commit inc before after gone
  have hsound := sound_reachable hb
  have hcomplete := complete_of_success hsound hload hok
  have hcache := cache_step_commit hsound hload now (.ok entries)
  have hmarks := Cache.metaOf_commit b.name hcomplete t
  have hafter : after = ((b.cache.commit b.name b.policy now load (.ok entries)).cache.ledger.metaOf
      t).atRest := congrArg (fun c : Cache κ ν => (c.ledger.metaOf t).atRest) hcache
  have hgone : ∀ k, gone k ↔ k ∈ b.cache.commitDrops load entries := by
    intro k
    rw [Cache.mem_commitDrops_iff b.name hcomplete, ← hcache]
  -- a key that is removed is not in the answer, and who asks for everything names no key
  have hdropped : ∀ k ∈ b.cache.commitDrops load entries,
      ¬ b.cache.AnswersFor load entries (.key k) := by
    intro k hk hanswers
    obtain ⟨hall, _, hmem, _⟩ := Cache.mem_commitDrops.1 hk
    rcases hanswers.1 with hin | hasked
    · exact hmem hin
    · rw [Key.explicit_of_isAll hall] at hasked
      exact List.not_mem_nil hasked
  have hanswered : b.cache.AnswersFor load entries t →
      t ∉ (b.cache.commitDrops load entries).map Target.key := by
    intro hanswers hmem
    obtain ⟨k, hk, rfl⟩ := List.mem_map.1 hmem
    exact hdropped k hk hanswers
  refine ⟨fun hanswers hi => ?_, fun hanswers hi => ?_, fun hnot hnone => ?_, fun k hk hkgone => ?_⟩
  · rw [hafter, hmarks, if_pos ⟨(Cache.answersFor_iff hcomplete hi).1 hanswers, hi⟩]
    show (EntryMeta.atRest _).afterLoad inc now = before.afterLoad inc now
    rw [Cache.atRest_commitBase (hanswered hanswers)]
  · rw [hafter, hmarks, if_neg fun h => Bool.noConfusion (hi.symm.trans h.2)]
    exact Cache.atRest_commitBase (hanswered hanswers)
  · rw [hafter, hmarks, if_neg fun h => hnot ((Cache.answersFor_iff hcomplete h.2).2 h.1)]
    refine Cache.atRest_commitBase fun hmem => ?_
    obtain ⟨k, hk, rfl⟩ := List.mem_map.1 hmem
    exact hnone k rfl ((hgone k).2 hk)
  · subst hk
    have hdrop := (hgone k).1 hkgone
    refine ⟨(Cache.mem_commitDrops.1 hdrop).1, ?_⟩
    rw [hafter, hmarks,
      if_neg fun h => hdropped k hdrop ((Cache.answersFor_iff hcomplete h.2).2 h.1)]
    exact Cache.metaOf_removeAll_of_mem hdrop _ _

/-- Of two keys that a load is asked for, one is fresh with another include and in the answer, and the
other is marked outdated while the load runs: the first has both includes, the second is left as it
is. -/
theorem commit_marks_half :
    let x := Includes.ofList ["x"]
    let y := Includes.ofList ["y"]
    let b : Busy String Nat := (new "entries" {}).run [.start (.single "a") y false,
      .commit 1 ⟨5, 0⟩ (.ok [("a", 1)]), .start (.list ["a", "b"]) x true, .markOutdated (.single "b")]
    let load : PendingLoad String := ⟨⟨.list ["a", "b"], x⟩, 2, [.key "a", .key "b"]⟩
    let commit : Op String Nat := .commit load.seq ⟨9, 0⟩ (.ok [("a", 2)])
    let after := (b.step commit).ledger
    load ∈ b.pending ∧ b.succeeds commit = true
      ∧ (after.metaOf (.key "a")).atRest.includes = Includes.ofList ["x", "y"]
      ∧ (after.metaOf (.key "a")).atRest.loadedAt = some ⟨9, 0⟩
      ∧ (after.metaOf (.key "b")).atRest.loaded = false := by
  intro x y b load commit after
  have hb : Reachable b := (Reachable.init "entries" {}).run _
  have hload : load ∈ b.pending := by decide +kernel
  have hok : b.succeeds commit = true := by decide +kernel
  have hmarked := (commit_marks hb hload hok (.key "a")).1 ⟨.inl (by decide), by decide +kernel⟩
    (by decide +kernel)
  have hkept := (commit_marks hb hload hok (.key "b")).2.1 ⟨.inr (by decide), by decide +kernel⟩
    (by decide +kernel)
  refine ⟨hload, hok, ?_, ?_, ?_⟩
  · dsimp only [after, commit]
    exact (congrArg EntryMeta.includes hmarked).trans (by decide +kernel)
  · dsimp only [after, commit]
    exact congrArg EntryMeta.loadedAt hmarked
  · dsimp only [after, commit]
    exact (congrArg EntryMeta.loaded hkept).trans (by decide +kernel)

end Busy

end Larder
