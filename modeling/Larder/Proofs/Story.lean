import Larder.Proofs.Entries
import Larder.Proofs.Outcome
import Mathlib.Data.Finset.Dedup
import Mathlib.Data.Finset.SDiff
import Mathlib.Data.Finset.Union
import Mathlib.Data.List.Induction

/-!
# Events tell the whole story

A subscriber that knows no more than the events can keep account of the cached keys: what was loaded
or updated is there, what was deleted is not, after a clearing nothing is. This file shows that its
account is right after every step, and that no value changes without an event that tells of its key.

There is one exception. A step that breaks off where a merge breaks down leaves what it has done by
then and publishes nothing. `Untold` says what a subscriber can miss: a key that such a step brought
or took away, as long as no later event tells of it.
-/

namespace Larder

namespace Event

variable {κ : Type} [DecidableEq κ]

/-- The keys that are known to be cached after the event. -/
def follow (known : Finset κ) : Event κ → Finset κ
  | .loaded _ keys | .updated keys => known ∪ keys.toFinset
  | .deleted keys => known \ keys.toFinset
  | .cleared => ∅
  | .loading _ | .outdated _ | .failed .. => known

/-- The keys that are known to be cached after some events, if none was before. -/
def followAll (events : List (Event κ)) : Finset κ := events.foldl follow ∅

/-- The event tells that something has happened to the value of the key. -/
def TellsOf (k : κ) : Event κ → Prop
  | .loaded _ keys | .updated keys | .deleted keys => k ∈ keys
  | .cleared => True
  | .loading _ | .outdated _ | .failed .. => False

omit [DecidableEq κ] in
theorem changesData_of_tellsOf {k : κ} {e : Event κ} (h : e.TellsOf k) : e.changesData = true := by
  cases e with
  | loading key => exact absurd h not_false
  | outdated keys => exact absurd h not_false
  | failed key f => exact absurd h not_false
  | _ => rfl

/-- What an event does not tell of stays as it was known. -/
theorem mem_follow_of_not_tellsOf {k : κ} {e : Event κ} (h : ¬ e.TellsOf k) (known : Finset κ) :
    k ∈ e.follow known ↔ k ∈ known := by
  cases e with
  | loaded key keys => simpa [follow] using fun hk : k ∈ keys => absurd hk h
  | updated keys => simpa [follow] using fun hk : k ∈ keys => absurd hk h
  | deleted keys => simpa [follow] using fun (_ : k ∈ known) (hk : k ∈ keys) => h hk
  | cleared => exact absurd trivial h
  | loading key => exact Iff.rfl
  | outdated keys => exact Iff.rfl
  | failed key f => exact Iff.rfl

theorem mem_foldl_of_not_tellsOf {k : κ} {events : List (Event κ)}
    (h : ∀ e ∈ events, ¬ e.TellsOf k) (known : Finset κ) :
    k ∈ events.foldl follow known ↔ k ∈ known := by
  induction events generalizing known with
  | nil => exact Iff.rfl
  | cons e events ih =>
      rw [List.foldl_cons, ih fun e he => h e (List.mem_cons_of_mem _ he)]
      exact mem_follow_of_not_tellsOf (h e List.mem_cons_self) known

end Event

/-! ## Changes that are told -/

section

variable {κ ν : Type} [EntryKey κ]

/-- The events tell how one shelf became the other. -/
structure Told (d d' : Shelf κ ν) (events : List (Event κ)) : Prop where
  /-- No value changes unless an event tells of its key. -/
  names : ∀ k, d'.get? k ≠ d.get? k → ∃ e ∈ events, e.TellsOf k
  /-- A key that an event tells of is known afterwards exactly if it has a value, whatever was known
  before. -/
  stands : ∀ known k, (∃ e ∈ events, e.TellsOf k) →
    (k ∈ events.foldl Event.follow known ↔ k ∈ d'.keys)

namespace Told

variable {d d' d'' : Shelf κ ν} {events events' : List (Event κ)} {ks : List κ}

theorem get?_eq (h : Told d d' events) {k : κ} (hk : ∀ e ∈ events, ¬ e.TellsOf k) :
    d'.get? k = d.get? k := by
  by_contra hne
  obtain ⟨e, he, htells⟩ := h.names k hne
  exact hk e he htells

/-- Events that change no data tell that none has changed. -/
theorem quiet (d : Shelf κ ν) (h : ∀ e ∈ events, e.changesData = false) : Told d d events where
  names k hk := absurd rfl hk
  stands known k htold := by
    obtain ⟨e, he, htells⟩ := htold
    have hchanges := Event.changesData_of_tellsOf htells
    rw [h e he] at hchanges
    exact Bool.noConfusion hchanges

theorem same (d : Shelf κ ν) : Told d d [] := quiet d fun _ he => absurd he List.not_mem_nil

theorem append (h : Told d d' events) (h' : Told d' d'' events') :
    Told d d'' (events ++ events') where
  names k hk := by
    by_cases hlate : d''.get? k = d'.get? k
    · obtain ⟨e, he, htells⟩ := h.names k (fun heq => hk (hlate.trans heq))
      exact ⟨e, List.mem_append_left _ he, htells⟩
    · obtain ⟨e, he, htells⟩ := h'.names k hlate
      exact ⟨e, List.mem_append_right _ he, htells⟩
  stands known k htold := by
    rw [List.foldl_append]
    by_cases hlate : ∃ e ∈ events', e.TellsOf k
    · exact h'.stands _ k hlate
    · -- the later events pass the key over, so its value is the one the earlier events left
      have hquiet : ∀ e ∈ events', ¬ e.TellsOf k := fun e he htells => hlate ⟨e, he, htells⟩
      have hearly : ∃ e ∈ events, e.TellsOf k := by
        obtain ⟨e, he, htells⟩ := htold
        exact ⟨e, (List.mem_append.1 he).resolve_right fun hin => hquiet e hin htells, htells⟩
      rw [Event.mem_foldl_of_not_tellsOf hquiet, h.stands known k hearly, Shelf.mem_keys,
        Shelf.mem_keys, h'.get?_eq hquiet]

/-- Writing some keys and no others is told by one event that lists them. -/
theorem written {e : Event κ} (he : e = .updated ks ∨ ∃ key, e = .loaded key ks)
    (hin : ∀ k ∈ ks, (d'.get? k).isSome = true) (hout : ∀ k, k ∉ ks → d'.get? k = d.get? k) :
    Told d d' [e] := by
  have htells : ∀ k, e.TellsOf k ↔ k ∈ ks := by
    intro k
    rcases he with rfl | ⟨key, rfl⟩ <;> exact Iff.rfl
  have hfollow : ∀ known, e.follow known = known ∪ ks.toFinset := by
    intro known
    rcases he with rfl | ⟨key, rfl⟩ <;> rfl
  refine ⟨fun k hk => ⟨e, List.mem_singleton_self e, (htells k).2 ?_⟩, fun known k htold => ?_⟩
  · by_contra hnot
    exact hk (hout k hnot)
  · obtain ⟨e', he', hk⟩ := htold
    rw [List.mem_singleton.1 he', htells] at hk
    rw [List.foldl_cons, List.foldl_nil, hfollow, Shelf.mem_keys]
    simp [hk, hin k hk]

/-- Removing some keys and no others is told by an event that lists them, if there are any. -/
theorem removed (hin : ∀ k ∈ ks, d'.get? k = none) (hout : ∀ k, k ∉ ks → d'.get? k = d.get? k) :
    Told d d' (if ks.isEmpty then [] else [.deleted ks]) := by
  cases ks with
  | nil =>
      obtain rfl : d' = d := Shelf.ext_get? fun k => hout k List.not_mem_nil
      exact same d'
  | cons j js =>
      refine ⟨fun k hk => ⟨_, List.mem_singleton_self _, ?_⟩, fun known k htold => ?_⟩
      · by_contra hnot
        exact hk (hout k hnot)
      · obtain ⟨e, he, hk⟩ := htold
        rw [List.mem_singleton.1 he] at hk
        have hgone : k ∉ known \ (j :: js).toFinset := by
          intro hmem
          exact (Finset.mem_sdiff.1 hmem).2 (List.mem_toFinset.2 hk)
        rw [Shelf.mem_keys, hin k hk]
        exact iff_of_false hgone Bool.false_ne_true

theorem cleared (d : Shelf κ ν) : Told d .empty [.cleared] where
  names k _ := ⟨.cleared, List.mem_singleton_self _, trivial⟩
  stands known k _ := by simp [Event.follow, Shelf.mem_keys]

end Told

end

namespace Cache

variable {κ ν : Type} [EntryKey κ]

/-! ## Operations that are carried through -/

section

variable {p : Policy κ ν} {now : Instant} {seq : Nat} {entries : List (κ × ν)} {c : Cache κ ν} {k : κ}

/-- Local writing touches no other keys. -/
theorem data_writeLocally (hk : k ∉ entries.map Prod.fst) :
    (writeLocally p now seq entries c).1.data.get? k = c.data.get? k := by
  fun_induction writeLocally p now seq entries c with
  | case1 c => rfl
  | case2 j v rest c hw => rfl
  | case3 j v rest c c' hw ih =>
      obtain ⟨merged, _, rfl⟩ := eq_of_write? hw
      rw [List.map_cons, List.mem_cons, not_or] at hk
      exact (ih hk.2).trans ((Shelf.get?_insert _ _ _ _).trans (if_neg (Ne.symm hk.1)))

/-- Local writing that is carried through brings all its keys. -/
theorem isSome_data_writeLocally (h : (writeLocally p now seq entries c).2 = true)
    (hk : k ∈ entries.map Prod.fst) :
    ((writeLocally p now seq entries c).1.data.get? k).isSome = true := by
  fun_induction writeLocally p now seq entries c with
  | case1 c => exact absurd hk List.not_mem_nil
  | case2 j v rest c hw => exact Bool.noConfusion h
  | case3 j v rest c c' hw ih =>
      by_cases hin : k ∈ rest.map Prod.fst
      · exact ih h hin
      · -- no later entry is for the key, so the value written here stays
        obtain rfl : k = j := (List.mem_cons.1 hk).resolve_right hin
        obtain ⟨merged, _, rfl⟩ := eq_of_write? hw
        rw [data_writeLocally hin]
        exact Option.isSome_of_eq_some ((Shelf.get?_insert _ _ _ _).trans (if_pos rfl))

theorem told_writeLocally (h : (writeLocally p now seq entries c).2 = true) :
    Told c.data (writeLocally p now seq entries c).1.data [.updated (entries.map Prod.fst)] :=
  Told.written (Or.inl rfl) (fun _ => isSome_data_writeLocally h) (fun _ => data_writeLocally)

end

theorem told_removeAll (ks : List κ) (seq : Nat) (c : Cache κ ν) :
    Told c.data (c.removeAll ks seq).data (if ks.isEmpty then [] else [.deleted ks]) :=
  Told.removed (fun _ hk => data_removeAll_of_mem hk seq c) (fun _ hk => data_removeAll hk seq c)

theorem told_setMany {c : Cache κ ν} {p : Policy κ ν} {now : Instant} {entries : List (κ × ν)}
    (h : (c.setMany p now entries).result = true) :
    Told c.data (c.setMany p now entries).cache.data (c.setMany p now entries).events := by
  rcases c.setMany_cases p now entries with ⟨_, heq⟩ | ⟨hall, heq⟩
  · rw [heq] at h
    exact Bool.noConfusion h
  · rw [heq]
    exact told_writeLocally hall

theorem told_replace {c : Cache κ ν} {p : Policy κ ν} {now : Instant} {entries : List (κ × ν)}
    (h : (c.replace p now entries).result = true) :
    Told c.data (c.replace p now entries).cache.data (c.replace p now entries).events := by
  rcases c.replace_cases p now entries with ⟨_, heq⟩ | ⟨hall, heq⟩
  · rw [heq] at h
    exact Bool.noConfusion h
  · rw [heq]
    exact (told_removeAll (c.replaceDrops entries) (c.ledger.seq + 1) c.draw).append
      (told_writeLocally hall)

theorem told_update (c : Cache κ ν) (k : κ) (f : ν → ν) :
    Told c.data (c.update k f).cache.data (c.update k f).events := by
  unfold update
  cases hk : c.data.get? k with
  | none => exact Told.same _
  | some v =>
      refine Told.written (Or.inl (Eq.refl (Event.updated [k]))) (fun j hj => ?_) (fun j hj => ?_)
      · rw [List.mem_singleton.1 hj]
        exact Option.isSome_of_eq_some ((Shelf.get?_insert c.data k k (f v)).trans (if_pos rfl))
      · have hne : ¬ k = j := fun heq => hj (List.mem_singleton.2 heq.symm)
        exact (Shelf.get?_insert c.data k j (f v)).trans (if_neg hne)

/-- The answer to a deletion lists the keys that had a value. -/
theorem mem_removeEach {ks : List κ} {seq : Nat} {c : Cache κ ν} {k : κ} :
    k ∈ (removeEach seq ks c).2 ↔ k ∈ ks ∧ (c.data.get? k).isSome = true := by
  induction ks generalizing c with
  | nil => simp [removeEach]
  | cons j ks ih =>
      have hrest : (k ∈ (removeEach seq ks (c.remove j seq)).2)
          ↔ k ∈ ks ∧ ¬ j = k ∧ (c.data.get? k).isSome = true := by
        rw [ih]
        show k ∈ ks ∧ ((c.data.erase j).get? k).isSome = true ↔ _
        rw [Shelf.get?_erase]
        by_cases hjk : j = k <;> simp [hjk]
      show (k ∈ if c.data.contains j then j :: (removeEach seq ks (c.remove j seq)).2
        else (removeEach seq ks (c.remove j seq)).2) ↔ _
      unfold Shelf.contains
      by_cases hjk : j = k
      · subst hjk
        by_cases hj : (c.data.get? j).isSome = true <;> simp [hj, hrest]
      · have hkj : ¬ k = j := fun heq => hjk heq.symm
        by_cases hj : (c.data.get? j).isSome = true <;> simp [hj, hrest, hjk, hkj]

theorem told_delete (c : Cache κ ν) (key : Key κ) :
    Told c.data (c.delete key).cache.data (c.delete key).events := by
  have hdata : (c.delete key).cache.data
      = (c.draw.removeAll (c.resolve key) (c.ledger.seq + 1)).data := by
    rw [← removeEach_fst]
    rfl
  rw [hdata]
  refine Told.removed (fun k hk => ?_) (fun k hk => ?_)
  · exact data_removeAll_of_mem (mem_removeEach.1 hk).1 _ _
  · by_cases hin : k ∈ c.resolve key
    · -- a key that stands for nothing is not listed, and removing it changes nothing
      have hnone : c.data.get? k = none := by
        by_contra hsome
        exact hk (mem_removeEach.2 ⟨hin, Option.isSome_iff_ne_none.2 hsome⟩)
      rw [data_removeAll_of_mem hin, hnone]
    · exact data_removeAll hin _ c.draw

theorem told_purge (c : Cache κ ν) (tracked : List (Key κ)) (cutoff : Instant) :
    Told c.data (c.purge tracked cutoff).cache.data (c.purge tracked cutoff).events := by
  have hdrop := told_removeAll (c.expired tracked cutoff) (c.ledger.seq + 1) c.draw
  unfold purge
  cases he : c.expired tracked cutoff with
  | nil => exact Told.same _
  | cons k ks =>
      rw [he] at hdrop
      exact hdrop

theorem told_start (c : Cache κ ν) (name : String) (p : Policy κ ν) (key : Key κ) (inc : Includes)
    (force : Bool) :
    Told c.data (c.start name p key inc force).cache.data (c.start name p key inc force).events := by
  unfold start
  split
  · exact Told.same _
  · split
    · exact Told.same _
    · dsimp only
      split
      · exact Told.same _
      · refine Told.quiet _ fun e he => ?_
        rw [List.mem_singleton.1 he]
        rfl

/-- The commit of a load that succeeds or fails is told; what it passes over is left out. -/
theorem told_commit {c : Cache κ ν} {name : String} {p : Policy κ ν} {now : Instant}
    {load : PendingLoad κ} {answer : Except Cause (List (κ × ν))}
    (h : (c.commit name p now load answer).result ≠ .brokenOff) :
    Told c.data (c.commit name p now load answer).cache.data
      (c.commit name p now load answer).events := by
  cases answer with
  | error cause =>
      refine Told.quiet _ fun e he => ?_
      rw [List.mem_singleton.1 he]
      rfl
  | ok entries =>
      have hdrop := told_removeAll (c.commitDrops load entries) load.seq (c.finished load)
      have hwrite : Told _ (c.commitWrites p now load entries).cache.data
          [.loaded load.signature.key (c.commitWrites p now load entries).keys] :=
        Told.written (Or.inr ⟨_, rfl⟩) (fun _ => isSome_data_writeLoaded) (fun _ => data_writeLoaded)
      rw [commit_ok] at h ⊢
      split at h
      · rename_i hcomplete
        rw [if_pos hcomplete]
        exact hdrop.append hwrite
      · exact absurd rfl h

end Cache

namespace Busy

variable {κ ν : Type} [EntryKey κ]

/-- **A step that is carried through is told.** -/
theorem told_change {b : Busy κ ν} {op : Op κ ν} (h : b.breaksOff op = false) :
    Told b.cache.data (b.change op).cache.data (b.change op).events := by
  cases op with
  | setMany now entries =>
      refine Cache.told_setMany (eq_true_of_ne_false fun hr => ?_)
      simp [breaksOff, change, Change.map, hr, Outcome.isBrokenOff] at h
  | replace now entries =>
      refine Cache.told_replace (eq_true_of_ne_false fun hr => ?_)
      simp [breaksOff, change, Change.map, hr, Outcome.isBrokenOff] at h
  | update k f => exact b.cache.told_update k f
  | delete key => exact b.cache.told_delete key
  | clear => exact Told.cleared _
  | markOutdated key => exact Told.quiet _ fun e he => by rw [List.mem_singleton.1 he]; rfl
  | markAllOutdated => exact Told.quiet _ fun e he => by rw [List.mem_singleton.1 he]; rfl
  | purge tracked cutoff => exact b.cache.told_purge tracked cutoff
  | register name r => exact Told.same _
  | start key inc force => exact b.cache.told_start b.name b.policy key inc force
  | commit seq now answer =>
      cases hp : b.pending? seq with
      | none =>
          rw [change_commit_of_none hp]
          exact Told.same _
      | some load =>
          unfold breaksOff at h
          rw [change_commit_of_some hp] at h ⊢
          refine Cache.told_commit fun hr => ?_
          simp [Change.map, hr, Outcome.isBrokenOff] at h
  | abort seq =>
      cases hl : b.loose? seq with
      | none =>
          rw [change_abort_of_none hl]
          exact Told.same _
      | some load =>
          rw [change_abort_of_some hl]
          exact Told.same _

/-- A step that breaks off publishes nothing. -/
theorem emits_of_breaksOff {b : Busy κ ν} {op : Op κ ν} (h : b.breaksOff op = true) :
    b.emits op = [] := by
  unfold breaksOff at h
  unfold emits
  cases op with
  | setMany now entries =>
      rcases b.cache.setMany_cases b.policy now entries with ⟨_, heq⟩ | ⟨_, heq⟩
      · rw [change, heq]; rfl
      · rw [change, heq] at h; exact Bool.noConfusion h
  | replace now entries =>
      rcases b.cache.replace_cases b.policy now entries with ⟨_, heq⟩ | ⟨_, heq⟩
      · rw [change, heq]; rfl
      · rw [change, heq] at h; exact Bool.noConfusion h
  | commit seq now answer =>
      cases hp : b.pending? seq with
      | none => rw [change_commit_of_none hp]
      | some load =>
          rw [change_commit_of_some hp] at h ⊢
          cases answer with
          | error cause => exact Bool.noConfusion h
          | ok entries =>
              rw [Cache.commit_ok] at h ⊢
              split at h
              · exact Bool.noConfusion h
              · rename_i hcomplete
                rw [if_neg hcomplete]
                rfl
  | abort seq =>
      cases hl : b.loose? seq with
      | none => rw [change_abort_of_none hl]
      | some load => rw [change_abort_of_some hl] at h; exact Bool.noConfusion h
  | _ => exact Bool.noConfusion h

/-! ## Runs -/

/-- A step of the run that broke off has brought or taken away the key, and no event has told of the
key since. -/
def Untold (b : Busy κ ν) (ops : List (Op κ ν)) (k : κ) : Prop :=
  ∃ before op after, ops = before ++ op :: after ∧ (b.run before).breaksOff op = true
    ∧ ¬ (k ∈ ((b.run before).step op).cache.data.keys ↔ k ∈ (b.run before).cache.data.keys)
    ∧ ∀ e ∈ ((b.run before).step op).story after, ¬ e.TellsOf k

theorem Untold.concat {b : Busy κ ν} {ops : List (Op κ ν)} {k : κ} (h : b.Untold ops k)
    {op : Op κ ν} (hop : ∀ e ∈ (b.run ops).emits op, ¬ e.TellsOf k) : b.Untold (ops ++ [op]) k := by
  obtain ⟨before, op', after, rfl, hbreak, hpresence, hquiet⟩ := h
  refine ⟨before, op', after ++ [op], by simp, hbreak, hpresence, ?_⟩
  rw [story_concat]
  rw [run_append] at hop
  exact List.forall_mem_append.2 ⟨hquiet, hop⟩

/-- What a step that breaks off leaves untold is all that a subscriber can be wrong about. -/
theorem mem_followAll_story (name : String) (policy : Policy κ ν) (ops : List (Op κ ν)) (k : κ) :
    (k ∈ Event.followAll ((new name policy).story ops)
        ↔ k ∈ ((new name policy).run ops).cache.data.keys)
      ∨ (new name policy).Untold ops k := by
  induction ops using List.reverseRecOn with
  | nil => exact Or.inl Iff.rfl
  | append_singleton ops op ih =>
      unfold Event.followAll at ih ⊢
      rw [story_concat, List.foldl_append, run_append, run_cons, run_nil]
      generalize hb : (new name policy).run ops = b at ih ⊢
      -- a step that neither tells of the key nor brings or takes it leaves things as they were
      have hkeep : (∀ e ∈ b.emits op, ¬ e.TellsOf k) →
          (k ∈ (b.step op).cache.data.keys ↔ k ∈ b.cache.data.keys) →
          (k ∈ (b.emits op).foldl Event.follow (((new name policy).story ops).foldl Event.follow ∅)
              ↔ k ∈ (b.step op).cache.data.keys)
            ∨ (new name policy).Untold (ops ++ [op]) k := by
        intro hquiet hsame
        rw [Event.mem_foldl_of_not_tellsOf hquiet, hsame]
        exact ih.imp_right fun h => h.concat (hb ▸ hquiet)
      cases hbreak : b.breaksOff op with
      | true =>
          have hnone := emits_of_breaksOff hbreak
          by_cases hsame : k ∈ (b.step op).cache.data.keys ↔ k ∈ b.cache.data.keys
          · exact hkeep (by rw [hnone]; exact fun e he => absurd he List.not_mem_nil) hsame
          · right
            refine ⟨ops, op, [], rfl, hb ▸ hbreak, hb ▸ hsame, fun e he => absurd he List.not_mem_nil⟩
      | false =>
          have htold := told_change hbreak
          rw [← cache_step] at htold
          by_cases hnamed : ∃ e ∈ b.emits op, e.TellsOf k
          · exact Or.inl (htold.stands _ k hnamed)
          · have hquiet : ∀ e ∈ b.emits op, ¬ e.TellsOf k := fun e he h => hnamed ⟨e, he, h⟩
            refine hkeep hquiet ?_
            rw [Shelf.mem_keys, Shelf.mem_keys, htold.get?_eq hquiet]

/--
**Events tell the whole story.**

In every run of a cache, the keys that a subscriber takes to be cached from the events alone are the
cached ones, after every step, except for keys that a step brought or took away before it broke off
and of which no event has told since; so they are exactly the cached keys as long as no step breaks
off. Every step that does not break off publishes, for every key whose value it changes, an event that
tells of it, and so an event that counts as a change of data whenever there is one. A step that breaks
off publishes nothing.
-/
theorem events_tell_story (name : String) (policy : Policy κ ν) (ops : List (Op κ ν)) :
    let b := (new name policy).run ops
    let known := Event.followAll ((new name policy).story ops)
    (∀ k, (k ∈ known ↔ k ∈ b.cache.data.keys) ∨ (new name policy).Untold ops k)
      ∧ (Along (fun b op => b.breaksOff op = false) (new name policy) ops →
          known = b.cache.data.keys.toFinset)
      ∧ (∀ op, b.breaksOff op = false →
          (∀ k, (b.step op).cache.data.get? k ≠ b.cache.data.get? k →
            ∃ e ∈ b.emits op, e.TellsOf k)
          ∧ ((b.step op).cache.data ≠ b.cache.data → ∃ e ∈ b.emits op, e.changesData = true))
      ∧ ∀ op, b.breaksOff op = true → b.emits op = [] := by
  intro b known
  have hstory := mem_followAll_story name policy ops
  refine ⟨hstory, fun halong => ?_, fun op hop => ?_, fun op => emits_of_breaksOff⟩
  · ext k
    rw [List.mem_toFinset]
    refine (hstory k).resolve_right ?_
    rintro ⟨before, op, after, rfl, hbreak, _⟩
    rw [halong.holds_at] at hbreak
    exact Bool.noConfusion hbreak
  · have htold := told_change hop
    rw [← cache_step] at htold
    refine ⟨htold.names, fun hne => ?_⟩
    have hkey : ∃ k, (b.step op).cache.data.get? k ≠ b.cache.data.get? k := by
      by_contra hnone
      exact hne (Shelf.ext_get? fun k => by_contra fun hk => hnone ⟨k, hk⟩)
    obtain ⟨k, hk⟩ := hkey
    obtain ⟨e, he, htells⟩ := htold.names k hk
    exact ⟨e, he, Event.changesData_of_tellsOf htells⟩

/-- A local write that breaks off at its second entry has written the first and says nothing of it. -/
theorem write_untold :
    let b : Busy String Nat := new "entries" { merge := fun _ n => if n = 0 then none else some n }
    let op : Op String Nat := .setMany ⟨0, 0⟩ [("a", 7), ("b", 0)]
    Event.followAll (b.story [op]) ≠ (b.run [op]).cache.data.keys.toFinset
      ∧ (b.step op).cache.data.get? "a" ≠ b.cache.data.get? "a"
      ∧ ¬ ∃ e ∈ b.emits op, e.TellsOf "a" := by
  intro b op
  have hnone : b.emits op = [] := rfl
  refine ⟨by decide +kernel, by decide +kernel, ?_⟩
  rw [hnone]
  rintro ⟨e, he, _⟩
  exact List.not_mem_nil he

end Busy

end Larder
