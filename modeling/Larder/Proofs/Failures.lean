import Larder.Proofs.Counting
import Larder.Proofs.Desk
import Larder.Proofs.Eviction
import Larder.Proofs.Finality
import Larder.Proofs.Marking

/-!
# What a failure leaves behind

A load that fails has nothing to write, and yet its commit goes through the same books as one that
succeeds. It must not make anything fresh, outdated or gone; it ends, and it is remembered against what
was asked for. A load that is refused does not even start.

Who is blamed for a failure is a question of time. A key that was touched since the load started has a
record that is newer than the failure, and keeps it. An alias has no stamp of its own, and neither has a
key that a newer load has found missing: both are blamed, however much newer what is known of them.
-/

namespace Larder

namespace EntryMeta

/-- The record with some loads less. -/
def ended (m : EntryMeta) (n : Nat) : EntryMeta := { m with loading := m.loading - n }

/-- The record with a failure held against it. -/
def blamed (m : EntryMeta) (f : Failure) : EntryMeta := { m with failure := some f }

theorem ended_ended (m : EntryMeta) (n n' : Nat) : (m.ended n).ended n' = m.ended (n + n') := by
  unfold ended
  rw [Nat.sub_sub]

theorem blamed_blamed (m : EntryMeta) (f : Failure) : (m.blamed f).blamed f = m.blamed f := rfl

end EntryMeta

namespace Ledger

variable {κ : Type} [DecidableEq κ]

/-! ## The record of a load that has ended -/

/-- The end of a load takes off a record as many loads as it has the target in its list. -/
theorem meta?_endAll (ts : List (Target κ)) (l : Ledger κ) (t : Target κ) :
    (ts.foldl endAt l).meta? t = (l.meta? t).map fun m => m.ended (ts.count t) := by
  induction ts generalizing l with
  | nil => simp [EntryMeta.ended]
  | cons u ts ih =>
      rw [List.foldl_cons, ih, meta?_endAt]
      by_cases hu : u = t
      · subst hu
        rw [if_pos rfl, List.count_cons_self, Option.map_map, Nat.add_comm]
        exact congrArg (fun g => Option.map g _) (funext fun m => m.ended_ended 1 _)
      · rw [if_neg hu, List.count_cons_of_ne hu]

theorem meta?_finishLoad {l : Ledger κ} {seq : Nat} (h : seq ∈ l.running) (s : Signature κ)
    (ts : List (Target κ)) (t : Target κ) :
    (l.finishLoad s seq ts).meta? t = (l.meta? t).map fun m => m.ended (ts.count t) := by
  rw [finishLoad_eq, if_pos (List.contains_iff_mem.2 h), meta?_endAll]
  rfl

end Ledger

namespace Cache

variable {κ ν : Type} [EntryKey κ]

/-! ## Who is blamed -/

/-- The failure of a load is held against the keys it was asked for by name, except those that were
written since it started, and against the alias it was asked for. -/
def blames (l : Ledger κ) (sig : Signature κ) (seq : Nat) : Target κ → Bool
  | .key k => decide (k ∈ sig.key.explicit) && !l.isSuperseded k seq
  | .named a => decide (sig.key.asAlias = some a)

theorem meta?_markFailedUnless (f : Failure) (seq : Nat) (l : Ledger κ) (j k : κ) :
    (markFailedUnless f seq l j).meta? (.key k)
      = if j = k ∧ l.isSuperseded k seq = false then some ((l.metaOf (.key k)).blamed f)
        else l.meta? (.key k) := by
  unfold markFailedUnless
  by_cases hj : j = k
  · subst hj
    cases l.isSuperseded j seq with
    | true => simp
    | false => simp [Ledger.meta?_markFailed, EntryMeta.blamed]
  · have hne : ¬ Target.key j = .key k := fun h => hj (Target.key.inj h)
    have hother : ¬ (j = k ∧ l.isSuperseded k seq = false) := fun h => hj h.1
    rw [if_neg hother]
    split
    · rfl
    · rw [Ledger.meta?_markFailed, if_neg hne]

/-- A failure is noted once, however often a key stands in the request. -/
theorem meta?_markFailedAll (f : Failure) (seq : Nat) (ks : List κ) (l : Ledger κ) (k : κ) :
    (ks.foldl (markFailedUnless f seq) l).meta? (.key k)
      = if k ∈ ks ∧ l.isSuperseded k seq = false then some ((l.metaOf (.key k)).blamed f)
        else l.meta? (.key k) := by
  induction ks generalizing l with
  | nil => rw [if_neg fun h => absurd h.1 List.not_mem_nil, List.foldl_nil]
  | cons j ks ih =>
      have hhere := meta?_markFailedUnless f seq l j k
      rw [List.foldl_cons, ih, (sameBooks_markFailedUnless f seq l j).isSuperseded, hhere]
      cases hs : l.isSuperseded k seq with
      | true => simp
      | false =>
          -- whether the first key is the one or not, what it leaves is what the others would leave
          by_cases hj : j = k
          · subst hj
            simp [Ledger.metaOf, hhere, hs, EntryMeta.blamed_blamed]
          · simp [Ledger.metaOf, hhere, hj, Ne.symm hj]

theorem meta?_named_markFailedAll (f : Failure) (seq : Nat) (ks : List κ) (l : Ledger κ) (a : Alias) :
    (ks.foldl (markFailedUnless f seq) l).meta? (.named a) = l.meta? (.named a) := by
  induction ks generalizing l with
  | nil => rfl
  | cons j ks ih =>
      rw [List.foldl_cons, ih]
      unfold markFailedUnless
      split
      · rfl
      · rw [Ledger.meta?_markFailed, if_neg fun h => Target.named_ne_key h.symm]

theorem meta?_markFailures_eq (f : Failure) (sig : Signature κ) (seq : Nat) (l : Ledger κ)
    (t : Target κ) :
    (markFailures f sig seq l).meta? t
      = if blames l sig seq t then some ((l.metaOf t).blamed f) else l.meta? t := by
  have halias : (markFailures f sig seq l).meta? t
      = if sig.key.asAlias.map Target.named = some t
        then some (((sig.key.explicit.foldl (markFailedUnless f seq) l).metaOf t).blamed f)
        else (sig.key.explicit.foldl (markFailedUnless f seq) l).meta? t := by
    rw [markFailures_eq]
    cases sig.key.asAlias with
    | none => simp
    | some a =>
        refine (Ledger.meta?_markFailed _ (.named a) t f).trans ?_
        rw [Option.map_some]
        by_cases ht : Target.named a = t
        · subst ht
          rw [if_pos rfl, if_pos rfl]
          rfl
        · rw [if_neg ht, if_neg fun h => ht (Option.some.inj h)]
  rw [halias]
  cases t with
  | key k =>
      rw [if_neg (by cases sig.key.asAlias <;> simp), meta?_markFailedAll]
      simp [blames]
  | named a =>
      rw [meta?_named_markFailedAll, Ledger.metaOf_congr (meta?_named_markFailedAll f seq _ l a)]
      simp [blames, Option.map_eq_some_iff]

/-! ## Who is refused -/

/-- A key may not be loaded, and this is what is held against it: an alias that nobody registered, or the
first of the keys that is not accepted. -/
inductive Refuses (c : Cache κ ν) (p : Policy κ ν) : Key κ → String → Prop where
  | unregistered {a : Alias} (h : c.resolvers.get? a.name = none) :
      Refuses c p (.byAlias a) (Key.byAlias a : Key κ).shown
  | unaccepted {key : Key κ} {before after : List κ} {k : κ} (hkey : key.explicit = before ++ k :: after)
      (hbefore : ∀ j ∈ before, p.accepts j = true) (hk : p.accepts k = false) :
      Refuses c p key (EntryKey.shown k)

theorem rejection_eq_some_iff {c : Cache κ ν} {name : String} {p : Policy κ ν} {key : Key κ}
    {f : Failure} :
    c.rejection name p key = some f ↔ ∃ text, c.Refuses p key text ∧ f = .invalidKey name text := by
  have hkeys : ∀ key : Key κ, (key.explicit.find? fun k => !p.accepts k).map
        (fun k => Failure.invalidKey name (EntryKey.shown k)) = some f
      ↔ ∃ before k after, key.explicit = before ++ k :: after ∧ (∀ j ∈ before, p.accepts j = true)
        ∧ p.accepts k = false ∧ f = .invalidKey name (EntryKey.shown k) := by
    intro key
    simp only [Option.map_eq_some_iff, List.find?_eq_some_iff_append, Bool.not_eq_true', Bool.not_not]
    constructor
    · rintro ⟨k, ⟨hk, before, after, hkey, hbefore⟩, rfl⟩
      exact ⟨before, k, after, hkey, hbefore, hk, rfl⟩
    · rintro ⟨before, k, after, hkey, hbefore, hk, rfl⟩
      exact ⟨k, ⟨hk, before, after, hkey, hbefore⟩, rfl⟩
  constructor
  · intro h
    cases key with
    | byAlias a =>
        unfold rejection Table.contains at h
        cases hr : c.resolvers.get? a.name with
        | none =>
            simp only [Key.asAlias, hr] at h
            exact ⟨_, .unregistered hr, (Option.some.inj h).symm⟩
        | some r => simp [Key.asAlias, hr] at h
    | single k =>
        obtain ⟨before, j, after, hkey, hbefore, hj, rfl⟩ := (hkeys (.single k)).1 h
        exact ⟨_, .unaccepted hkey hbefore hj, rfl⟩
    | list ks =>
        obtain ⟨before, j, after, hkey, hbefore, hj, rfl⟩ := (hkeys (.list ks)).1 h
        exact ⟨_, .unaccepted hkey hbefore hj, rfl⟩
  · rintro ⟨text, hrefuses, rfl⟩
    cases hrefuses with
    | unregistered hr => simp [rejection, Key.asAlias, Table.contains, hr]
    | @unaccepted key before after k hkey hbefore hk =>
        -- an alias names no key that could be refused
        have hnone : key.asAlias = none := by
          cases key with
          | byAlias a => cases before <;> cases hkey
          | _ => rfl
        unfold rejection
        rw [hnone]
        exact (hkeys key).2 ⟨before, k, after, hkey, hbefore, hk, rfl⟩

theorem start_rejected_iff {c : Cache κ ν} {name : String} {p : Policy κ ν} {key : Key κ}
    {inc : Includes} {force : Bool} {f : Failure} :
    (c.start name p key inc force).result = .rejected f ↔ c.rejection name p key = some f := by
  unfold start
  cases c.rejection name p key with
  | some g => simp
  | none =>
      refine iff_of_false (fun h => ?_) (fun h => by cases h)
      dsimp only at h
      split at h
      · cases h
      · split at h <;> cases h

/-- A refusal is all there is to it. -/
theorem start_of_rejection {c : Cache κ ν} {name : String} {p : Policy κ ν} {key : Key κ} {f : Failure}
    (h : c.rejection name p key = some f) (inc : Includes) (force : Bool) :
    c.start name p key inc force = { cache := c, result := .rejected f } := by
  unfold start
  rw [h]

end Cache

namespace Busy

variable {κ ν : Type} [EntryKey κ]

/-- What the failure of a load is held against after a run: the keys it was asked for by name, if no
step has touched them since it started, and the alias it was asked for. -/
def Blames (b : Busy κ ν) (ops : List (Op κ ν)) (load : PendingLoad κ) : Target κ → Prop
  | .key k => k ∈ load.signature.key.explicit ∧ ¬ b.TouchedDuring ops load k
  | .named a => load.signature.key.asAlias = some a

theorem blames_iff {name : String} {policy : Policy κ ν} {ops : List (Op κ ν)} {load : PendingLoad κ}
    (hload : load ∈ ((new name policy).run ops).pending) (t : Target κ) :
    Cache.blames ((new name policy).run ops).ledger load.signature load.seq t = true
      ↔ (new name policy).Blames ops load t := by
  cases t with
  | named a => exact decide_eq_true_iff
  | key k =>
      unfold Cache.blames Blames
      rw [Bool.and_eq_true, decide_eq_true_iff, Bool.not_eq_true', ← Bool.not_eq_true,
        isSuperseded_run_new hload k]

/-- Who is blamed was asked for. -/
theorem mem_requested_of_blames {l : Ledger κ} {sig : Signature κ} {seq : Nat} {t : Target κ}
    (h : Cache.blames l sig seq t = true) : t ∈ sig.key.requested := by
  cases t with
  | named a => exact Key.named_mem_requested.2 (decide_eq_true_iff.1 h)
  | key k =>
      unfold Cache.blames at h
      rw [Bool.and_eq_true, decide_eq_true_iff] at h
      exact Key.key_mem_requested.2 h.1

section

variable {b : Busy κ ν} {load : PendingLoad κ}

/-- A load under way is counted at all its targets. -/
theorem count_le_loading (hb : Reachable b) (hload : load ∈ b.pending) (t : Target κ) :
    load.targets.count t ≤ (b.ledger.metaOf t).loading := by
  have hloads : (b.ledger.metaOf t).loading = demand b.pending t := (counted_reachable hb).loads t
  rw [hloads]
  exact count_le_demand hload t

/-- What is asked for has a record while the load is under way. -/
theorem exists_meta_of_requested (hb : Reachable b) (hload : load ∈ b.pending) {t : Target κ}
    (ht : t ∈ load.signature.key.requested) : ∃ m, b.ledger.meta? t = some m := by
  have htarget : t ∈ load.targets := asked_reachable hb load hload t ht
  have hcount : 0 < b.ledger.loads t :=
    Nat.lt_of_lt_of_le (List.count_pos_iff.2 htarget) (count_le_loading hb hload t)
  obtain ⟨m, hm, _⟩ := Ledger.exists_meta_of_loads_pos hcount
  exact ⟨m, hm⟩

/-- **The records after a load has failed.** One load less is counted at its targets, and who is blamed
has the failure; nothing else is different. -/
theorem meta?_step_failed (hb : Reachable b) (hload : load ∈ b.pending) (now : Instant) (cause : Cause)
    (t : Target κ) :
    (b.step (.commit load.seq now (.error cause))).ledger.meta? t
      = if Cache.blames b.ledger load.signature load.seq t then
          (b.ledger.meta? t).map fun m =>
            (m.ended (load.targets.count t)).blamed (.load b.name load.signature.key.shown cause)
        else (b.ledger.meta? t).map fun m => m.ended (load.targets.count t) := by
  have hsound := sound_reachable hb
  have hended : (b.cache.finished load).ledger.meta? t = _ :=
    Ledger.meta?_finishLoad (hsound.mem_running hload) load.signature load.targets t
  have hblames : Cache.blames (b.cache.finished load).ledger load.signature load.seq t
      = Cache.blames b.ledger load.signature load.seq t := by
    cases t with
    | named a => rfl
    | key k => simp only [Cache.blames, Cache.isSuperseded_finished]
  show (b.step _).cache.ledger.meta? t = _
  rw [cache_step_commit hsound hload, Cache.ledger_commit_error, Ledger.meta?_settle,
    Cache.meta?_markFailures_eq, hblames]
  by_cases hblamed : Cache.blames b.ledger load.signature load.seq t = true
  · obtain ⟨m, hm⟩ := exists_meta_of_requested hb hload (mem_requested_of_blames hblamed)
    simp [Ledger.metaOf, hended, hm, hblamed]
  · simp [hended, hblamed]

/-- A load that has failed no longer counts. -/
theorem loading_step_failed (hb : Reachable b) (hload : load ∈ b.pending) (now : Instant) (cause : Cause)
    (t : Target κ) :
    ((b.step (.commit load.seq now (.error cause))).ledger.metaOf t).loading + load.targets.count t
      = (b.ledger.metaOf t).loading := by
  -- it is counted at its targets, so that nothing is cut off at zero
  have hle := count_le_loading hb hload t
  have hcount : ((b.step (.commit load.seq now (.error cause))).ledger.metaOf t).loading
      = (b.ledger.metaOf t).loading - load.targets.count t := by
    unfold Ledger.metaOf
    rw [meta?_step_failed hb hload]
    cases b.ledger.meta? t with
    | none => split <;> exact (Nat.zero_sub _).symm
    | some m => split <;> rfl
  omega

end

/-- A load is refused for the reason that the key may not be loaded, and for no other. -/
theorem change_start_rejected_iff {b : Busy κ ν} {key : Key κ} {inc : Includes} {force : Bool}
    {f : Failure} :
    (b.change (.start key inc force)).result = .started (.rejected f)
      ↔ ∃ text, b.cache.Refuses b.policy key text ∧ f = .invalidKey b.name text := by
  have hresult : (b.cache.start b.name b.policy key inc force).result = .rejected f ↔ _ :=
    Cache.start_rejected_iff
  rw [← Cache.rejection_eq_some_iff, ← hresult]
  exact ⟨fun h => Outcome.started.inj h, fun h => congrArg Outcome.started h⟩

/-- A refused load changes nothing and is told to nobody. -/
theorem start_of_refuses {b : Busy κ ν} {key : Key κ} {text : String}
    (h : b.cache.Refuses b.policy key text) (inc : Includes) (force : Bool) :
    b.change (.start key inc force)
      = { cache := b.cache, result := .started (.rejected (.invalidKey b.name text)) } := by
  have hrejection : b.cache.rejection b.name b.policy key = some (.invalidKey b.name text) :=
    Cache.rejection_eq_some_iff.2 ⟨text, h, rfl⟩
  show (b.cache.start b.name b.policy key inc force).map Outcome.started = _
  rw [Cache.start_of_rejection hrejection]
  rfl

end Busy

namespace Teams

/-- One reply that failed fails the load, for the reason of such a reply. -/
theorem joined_of_failed {replies : List (Except Api.ServiceError Json)}
    (h : ∃ reply ∈ replies, ∃ e, entries reply = .error e) :
    ∃ reply ∈ replies, ∃ e, entries reply = .error e ∧ joined replies = .error (.service e) := by
  have hmap : ∃ reply ∈ replies, ∃ e, entries reply = .error e ∧ replies.mapM entries = .error e := by
    induction replies with
    | nil =>
        obtain ⟨reply, hmem, _⟩ := h
        exact absurd hmem List.not_mem_nil
    | cons first rest ih =>
        rw [List.mapM_cons]
        cases hfirst : entries first with
        | error e => exact ⟨first, List.mem_cons_self, e, hfirst, rfl⟩
        | ok es =>
            -- the one that failed is among the others
            obtain ⟨reply, hmem, e, he⟩ := h
            have hrest : reply ∈ rest := by
              rcases List.mem_cons.1 hmem with rfl | hrest
              · rw [hfirst] at he
                cases he
              · exact hrest
            obtain ⟨reply', hmem', e', he', hall⟩ := ih ⟨reply, hrest, e, he⟩
            refine ⟨reply', List.mem_cons_of_mem _ hmem', e', he', ?_⟩
            rw [hall]
            rfl
  obtain ⟨reply, hmem, e, he, hall⟩ := hmap
  refine ⟨reply, hmem, e, he, ?_⟩
  unfold joined
  rw [hall]

/-- A load of which one request failed writes no team at all, and tells nothing but its failure. -/
theorem Desk.loaded_of_failed {d : Desk} {seq : Nat} {load : PendingLoad String}
    (hload : d.pending? seq = some load) {replies : List (Except Api.ServiceError Json)}
    (h : ∃ reply ∈ replies, ∃ e, entries reply = .error e) (now : Instant) :
    ∃ reply ∈ replies, ∃ e, entries reply = .error e
      ∧ (d.step (.loaded seq now replies)).resource.cache.data = d.resource.cache.data
      ∧ (d.step (.loaded seq now replies)).resource.channel = d.resource.channel.publish
          (.failed load.signature.key (.load d.resource.name load.signature.key.shown (.service e))) := by
  obtain ⟨reply, hmem, e, he, hjoined⟩ := joined_of_failed h
  refine ⟨reply, hmem, e, he, ?_⟩
  simp only [step, hload, hjoined]
  exact ⟨rfl, rfl⟩

end Teams

namespace Busy

variable {κ ν : Type} [EntryKey κ]

/--
**A load that fails changes nothing but failures.**

After any run, let a load that is under way fail for any cause. No entry is different. The record of
what is blamed has the failure, every other record has the failure it had or none, and of all else a
record says only the count of running loads is different: the load no longer counts. One event is
published.

A load is refused exactly if its alias is not registered or one of the keys it names is not accepted;
the refusal names the alias or the first such key. Nothing is started then, told or changed.

For teams it follows that a load is all or nothing: if one of its requests fails, no team is written.
-/
theorem failed_load_changes_failures_only (name : String) (policy : Policy κ ν) (ops : List (Op κ ν)) :
    let b := (new name policy).run ops
    (∀ load ∈ b.pending, ∀ (now : Instant) (cause : Cause),
        let f : Failure := .load b.name load.signature.key.shown cause
        let commit : Op κ ν := .commit load.seq now (.error cause)
        let b' := b.step commit
        b'.cache.data = b.cache.data
          ∧ (∀ t, (new name policy).Blames ops load t → ∃ m, b.ledger.meta? t = some m
              ∧ b'.ledger.meta? t = some { m with
                  loading := m.loading - load.targets.count t, failure := some f })
          ∧ (∀ t, ¬ (new name policy).Blames ops load t → b'.ledger.meta? t
              = (b.ledger.meta? t).map fun m => { m with loading := m.loading - load.targets.count t })
          ∧ (∀ t, (b'.ledger.metaOf t).loading + load.targets.count t = (b.ledger.metaOf t).loading)
          ∧ b.emits commit = [.failed load.signature.key f]
          ∧ (b.change commit).result = .committed load (.failure f))
      ∧ (∀ (key : Key κ) (inc : Includes) (force : Bool),
        let start : Op κ ν := .start key inc force
        (∀ f, (b.change start).result = .started (.rejected f)
            ↔ ∃ text, b.cache.Refuses b.policy key text ∧ f = .invalidKey b.name text)
          ∧ ∀ text, b.cache.Refuses b.policy key text → b.step start = b ∧ b.emits start = [])
      ∧ ∀ (d : Teams.Desk) (seq : Nat) (load : PendingLoad String), d.pending? seq = some load →
        ∀ (now : Instant) (replies : List (Except Api.ServiceError Json)),
          (∃ reply ∈ replies, ∃ e, Teams.entries reply = .error e) →
          ∃ reply ∈ replies, ∃ e, Teams.entries reply = .error e
            ∧ (d.step (.loaded seq now replies)).resource.cache.data = d.resource.cache.data
            ∧ (d.step (.loaded seq now replies)).resource.channel = d.resource.channel.publish
                (.failed load.signature.key
                  (.load d.resource.name load.signature.key.shown (.service e))) := by
  intro b
  have hb : Reachable b := (Reachable.init name policy).run ops
  refine ⟨?_, ?_, fun d seq load hload now replies h => Teams.Desk.loaded_of_failed hload h now⟩
  · intro load hload now cause f commit b'
    have hpending := (sound_reachable hb).pending?_eq hload
    have hchange : b.change commit = _ := change_commit_of_some hpending now (.error cause)
    have hrecord : ∀ t, b'.ledger.meta? t = _ := meta?_step_failed hb hload now cause
    refine ⟨?_, fun t ht => ?_, fun t ht => ?_, fun t => ?_, ?_, ?_⟩
    · show (b.step commit).cache.data = _
      rw [cache_step, hchange]
      rfl
    · have hblames := (blames_iff hload t).2 ht
      obtain ⟨m, hm⟩ := exists_meta_of_requested hb hload (mem_requested_of_blames hblames)
      refine ⟨m, hm, ?_⟩
      rw [hrecord, if_pos hblames, hm]
      rfl
    · have hblames := mt (blames_iff hload t).1 ht
      rw [hrecord, if_neg hblames]
      rfl
    · exact loading_step_failed hb hload now cause t
    · show (b.change commit).events = _
      rw [hchange]
      rfl
    · rw [hchange]
      rfl
  · intro key inc force start
    refine ⟨fun f => change_start_rejected_iff, fun text hrefuses => ?_⟩
    have hchange : b.change start = _ := start_of_refuses hrefuses inc force
    refine ⟨?_, ?_⟩
    · rw [step_eq, hchange]
      rfl
    · show (b.change start).events = _
      rw [hchange]

/-- Of two keys that a load was asked for, one is written while it runs. The failure is held against the
other only. A load of a key that is not accepted is refused, and of two teams that are asked for the one
that came is not written if the other did not. -/
theorem failed_load_changes_failures_only_half :
    let policy : Policy String Nat := { accepts := fun k => k ≠ "" }
    let ops : List (Op String Nat) :=
      [.start (.list ["a", "b"]) Includes.none false, .setMany ⟨0, 0⟩ [("b", 1)]]
    let b := (new "entries" policy).run ops
    let load : PendingLoad String := ⟨⟨.list ["a", "b"], Includes.none⟩, 1, [.key "a", .key "b"]⟩
    let b' := b.step (.commit 1 ⟨0, 0⟩ (.error (.plain "offline")))
    let d := ({} : Teams.Desk).step (.load (.list ["a", "b"]) Includes.none false)
    let team : Json := .obj [("teams", .arr [.obj [("teamId", .str "a")]])]
    load ∈ b.pending ∧ b'.cache.data = b.cache.data
      ∧ b'.ledger.failureOf (.key "a")
        = some (.load "entries" load.signature.key.shown (.plain "offline"))
      ∧ b'.ledger.failureOf (.key "b") = none
      ∧ b.step (.start (.list ["a", ""]) Includes.none true) = b
      ∧ (d.step (.loaded 1 ⟨0, 0⟩ [.ok team, .error (.transport "offline")])).resource.cache.data
        = d.resource.cache.data := by
  intro policy ops b load b' d team
  have hload : load ∈ b.pending := by decide +kernel
  obtain ⟨hfailed, hrefused, hteams⟩ := failed_load_changes_failures_only "entries" policy ops
  obtain ⟨hdata, hblamed, hspared, _⟩ := hfailed load hload ⟨0, 0⟩ (.plain "offline")
  have ha : (new "entries" policy).Blames ops load (.key "a") := by
    refine ⟨List.mem_cons_self, ?_⟩
    rintro (⟨_, h⟩ | ⟨_, h⟩ | h)
    · exact h
    · exact absurd h (by decide +kernel : "a" ∉ Cache.writtenKeys policy [("b", 1)] Shelf.empty)
    · exact h
  have hb : ¬ (new "entries" policy).Blames ops load (.key "b") := fun h =>
    h.2 (Or.inr (Or.inl ⟨hload, List.mem_cons_self⟩))
  have hfirst : (Key.list ["a", ""]).explicit = ["a"] ++ "" :: [] := rfl
  have hrefuses : b.cache.Refuses b.policy (.list ["a", ""]) (EntryKey.shown "") :=
    .unaccepted hfirst (by decide) (by decide)
  obtain ⟨_, _, _, _, hkept, _⟩ := hteams d 1 _ rfl ⟨0, 0⟩ [.ok team, .error (.transport "offline")]
    ⟨_, List.mem_cons_of_mem _ List.mem_cons_self, .transport "offline", rfl⟩
  obtain ⟨m, _, hm⟩ := hblamed (.key "a") ha
  refine ⟨hload, hdata, ?_, ?_, ((hrefused _ Includes.none true).2 _ hrefuses).1, hkept⟩
  · show (b'.ledger.meta? (.key "a")).bind EntryMeta.failure = _
    rw [hm]
    rfl
  · show (b'.ledger.meta? (.key "b")).bind EntryMeta.failure = _
    rw [hspared (.key "b") hb]
    rfl

end Busy

end Larder
