import Larder.Proofs.Counting
import Larder.Proofs.Outcome
import Larder.Proofs.Stamps
import Mathlib.Data.List.Induction

/-!
# Stamps may be forgotten

When no load runs, a cache drops its stamps. `Busy.changeWith` is the operation behind a step with
anything in place of this settling: with `Ledger.settle` it is the operation of the cache, and with
`id` it is the operation of a cache that keeps every stamp for ever. This file shows that nobody can
tell the two apart. Whoever asks for a stamp is a load that may still ask, and to these the two caches
are alike after every step.

A step that breaks off where a merge breaks down never comes to its settling. What it has noted stays
in the tables, load or no load, until a later step settles.
-/

namespace Larder

/-! ## Operations before they settle -/

/-- What a step comes to before it settles, and whether it does. -/
structure Draft (κ ν : Type) [EntryKey κ] extends Change κ ν (Outcome κ) where
  /-- Whether the operation settles at its end. One that changes nothing does not, nor does one that
  breaks off. -/
  settles : Bool

/-- Finish a draft with `tidy` in place of the settling. -/
def Draft.finish {κ ν : Type} [EntryKey κ] (tidy : Ledger κ → Ledger κ) (d : Draft κ ν) :
    Change κ ν (Outcome κ) :=
  if d.settles then { cache := d.cache.withLedger tidy, events := d.events, result := d.result }
  else d.toChange

namespace Cache

variable {κ ν : Type} [EntryKey κ]

/-- What the commit of a load comes to before it settles. -/
def commitDraft (c : Cache κ ν) (name : String) (p : Policy κ ν) (now : Instant)
    (load : PendingLoad κ) : Except Cause (List (κ × ν)) → Draft κ ν
  | .error cause =>
    let f : Failure := .load name load.signature.key.shown cause
    { cache := (c.finished load).withLedger (markFailures f load.signature load.seq)
      events := [.failed load.signature.key f]
      result := .committed load (.failure f)
      settles := true }
  | .ok entries =>
    let removed := c.commitDrops load entries
    let w := c.commitWrites p now load entries
    if w.complete then
      { cache := w.cache.withLedger (markRequested now load.signature load.seq)
        events := (if removed.isEmpty then [] else [.deleted removed])
          ++ [.loaded load.signature.key w.keys]
        result := .committed load .success
        settles := true }
    else { cache := w.cache, result := .committed load .brokenOff, settles := false }

theorem finish_commitDraft (c : Cache κ ν) (name : String) (p : Policy κ ν) (now : Instant)
    (load : PendingLoad κ) (answer : Except Cause (List (κ × ν))) :
    (c.commitDraft name p now load answer).finish Ledger.settle
      = (c.commit name p now load answer).map (.committed load) := by
  cases answer with
  | error cause => rfl
  | ok entries =>
      rw [commit_ok, commitDraft]
      cases (c.commitWrites p now load entries).complete <;> rfl

end Cache

namespace Busy

variable {κ ν : Type} [EntryKey κ]

/-- What the operation behind a step comes to before it settles. -/
def draft (b : Busy κ ν) : Op κ ν → Draft κ ν
  | .setMany now entries =>
    let w := Cache.writeLocally b.policy now (b.ledger.seq + 1) entries b.cache.draw
    if w.2 then
      { cache := w.1, events := [.updated (entries.map Prod.fst)], result := .wrote true
        settles := true }
    else { cache := w.1, result := .wrote false, settles := false }
  | .replace now entries =>
    let removed := b.cache.replaceDrops entries
    let w := Cache.writeLocally b.policy now (b.ledger.seq + 1) entries (b.cache.replaceBase entries)
    if w.2 then
      { cache := w.1.withLedger fun l => l.markWritten (.named Alias.all) now
        events := (if removed.isEmpty then [] else [.deleted removed])
          ++ [.updated (entries.map Prod.fst)]
        result := .wrote true
        settles := true }
    else { cache := w.1, result := .wrote false, settles := false }
  | .update k f =>
    match b.cache.data.get? k with
    | none => { cache := b.cache, result := .updated false, settles := false }
    | some v =>
      { cache := { b.cache.draw with data := b.cache.data.insert k (f v) }.withLedger
          fun l => l.stamp k (b.ledger.seq + 1)
        events := [.updated [k]]
        result := .updated true
        settles := true }
  | .delete key =>
    let r := Cache.removeEach (b.ledger.seq + 1) (b.cache.resolve key) b.cache.draw
    { cache := r.1
      events := if r.2.isEmpty then [] else [.deleted r.2]
      result := .removed r.2
      settles := true }
  | .clear =>
    { cache := { b.cache.draw with data := .empty }.withLedger
        fun l => (l.stampClear (b.ledger.seq + 1)).forgetAll
      events := [.cleared]
      result := .done
      settles := true }
  | .markOutdated key =>
    let r := Cache.markEach (b.ledger.seq + 1) (b.cache.resolve key)
      (Cache.markAlias b.ledger.draw key (b.ledger.seq + 1))
    { cache := { b.cache with ledger := r.1 }
      events := [.outdated r.2]
      result := .done
      settles := true }
  | .markAllOutdated =>
    { cache := b.cache.draw.withLedger fun l => l.markAllOutdated (b.ledger.seq + 1)
      events := [.outdated b.cache.data.keys]
      result := .done
      settles := true }
  | .purge tracked cutoff =>
    match b.cache.expired tracked cutoff with
    | [] => { cache := b.cache, result := .removed [], settles := false }
    | keys =>
      { cache := (b.cache.draw.removeAll keys (b.ledger.seq + 1)).withLedger
          fun l => l.markOutdated (.named Alias.all) (b.ledger.seq + 1)
        events := [.deleted keys]
        result := .removed keys
        settles := true }
  | .register name r => { cache := b.cache.register name r, result := .done, settles := false }
  | .start key inc force =>
    { (b.cache.start b.name b.policy key inc force).map .started with settles := false }
  | .commit n now answer =>
    match b.pending? n with
    | none => { cache := b.cache, result := .done, settles := false }
    | some load => b.cache.commitDraft b.name b.policy now load answer
  | .abort n =>
    match b.loose? n with
    | none => { cache := b.cache, result := .done, settles := false }
    | some load =>
      { cache := b.cache.finished load
        result := .aborted load (.aborted b.name load.signature.key.shown)
        settles := true }

/-- The operation behind a step with `tidy` in place of the settling. -/
def changeWith (tidy : Ledger κ → Ledger κ) (b : Busy κ ν) (op : Op κ ν) : Change κ ν (Outcome κ) :=
  (b.draft op).finish tidy

/-- **Settling, the operation behind a step is that of the cache.** -/
theorem changeWith_settle (b : Busy κ ν) (op : Op κ ν) :
    b.changeWith Ledger.settle op = b.change op := by
  unfold changeWith
  cases op with
  | setMany now entries =>
      rw [draft, change]
      rcases b.cache.setMany_cases b.policy now entries with ⟨hw, heq⟩ | ⟨hw, heq⟩
      · rw [heq, hw]; rfl
      · rw [heq, hw]; rfl
  | replace now entries =>
      rw [draft, change]
      rcases b.cache.replace_cases b.policy now entries with ⟨hw, heq⟩ | ⟨hw, heq⟩
      · rw [heq, hw]; rfl
      · rw [heq, hw]; rfl
  | update k f =>
      rw [draft, change, Cache.update]
      cases b.cache.data.get? k <;> rfl
  | purge tracked cutoff =>
      rw [draft, change, Cache.purge]
      cases b.cache.expired tracked cutoff <;> rfl
  | commit n now answer =>
      rw [draft, change]
      cases b.pending? n with
      | none => rfl
      | some load => exact b.cache.finish_commitDraft b.name b.policy now load answer
  | abort n =>
      rw [draft, change]
      cases b.loose? n <;> rfl
  | _ => rfl

end Busy

/-! ## The cache that keeps its stamps -/

/-- The drafts differ in the stamps of their caches only, and not in what these say to the loads in
`N`. -/
structure Draft.Alike {κ ν : Type} [EntryKey κ] (N : Nat → Prop) (d d' : Draft κ ν) : Prop where
  /-- The caches are alike. -/
  cache : d.cache.Alike N d'.cache
  /-- The events are the same. -/
  events : d'.events = d.events
  /-- The answers are the same. -/
  result : d'.result = d.result
  /-- Both settle, or none. -/
  settles : d'.settles = d.settles

/-- Settling one of two alike drafts leaves them alike to the loads that may still ask. -/
theorem Draft.Alike.finish {κ ν : Type} [EntryKey κ] {N : Nat → Prop} {d d' : Draft κ ν}
    (h : d.Alike N d') (hN : ∀ n, d.cache.ledger.Awake n → N n) :
    (d'.finish id).events = (d.finish Ledger.settle).events
      ∧ (d'.finish id).result = (d.finish Ledger.settle).result
      ∧ (d.finish Ledger.settle).cache.Alike d.cache.ledger.Awake (d'.finish id).cache := by
  unfold Draft.finish
  rw [h.settles]
  split
  · exact ⟨h.events, h.result, ⟨h.cache.rest, h.cache.ledger.settle hN⟩⟩
  · exact ⟨h.events, h.result, ⟨h.cache.rest, h.cache.ledger.mono hN⟩⟩

theorem Draft.awake_finish {κ ν : Type} [EntryKey κ] (d : Draft κ ν) :
    (d.finish Ledger.settle).cache.ledger.Awake = d.cache.ledger.Awake := by
  unfold Draft.finish
  split
  · funext n
    show (d.cache.ledger.settle).Awake n = _
    unfold Ledger.Awake
    rw [Ledger.running_settle, Ledger.seq_settle]
  · rfl

namespace Cache

variable {κ ν : Type} [EntryKey κ] {N : Nat → Prop} {c c' : Cache κ ν}

/-- A load that may still ask is committed to both alike. -/
theorem Alike.commitDraft (h : c.Alike N c') (name : String) (p : Policy κ ν) (now : Instant)
    {load : PendingLoad κ} (hN : N load.seq) (hseq : load.seq ≤ c.ledger.seq)
    (answer : Except Cause (List (κ × ν))) :
    (c.commitDraft name p now load answer).Alike N (c'.commitDraft name p now load answer) := by
  have hfin : (c.finished load).Alike N (c'.finished load) :=
    h.withLedger _ (h.ledger.finishLoad load.signature load.seq load.targets)
  cases answer with
  | error cause =>
      exact ⟨hfin.withLedger _ (alike_markFailures hfin.ledger _ load.signature hN), rfl, rfl, rfl⟩
  | ok entries =>
      have hdrops : c'.commitDrops load entries = c.commitDrops load entries := by
        unfold commitDrops
        rw [hfin.stale _ hN]
      have hseq' : load.seq ≤ (c.finished load).ledger.seq :=
        Nat.le_trans hseq (Nat.le_of_eq (Ledger.seq_finishLoad c.ledger _ _ _).symm)
      have hbase := hfin.removeAll (c.commitDrops load entries) hseq'
      have hbound := seq_removeAll (c.commitDrops load entries) load.seq (c.finished load)
      have hwrites : c'.commitWrites p now load entries
          = Cache.writeLoaded p now load.signature.includes load.seq entries
            ((c'.finished load).removeAll (c.commitDrops load entries) load.seq) := by
        unfold commitWrites
        rw [hdrops]
      obtain ⟨hcache, hkeys, hcomplete⟩ :=
        hbase.writeLoaded p now load.signature.includes entries hN (hbound ▸ hseq')
      rw [← hwrites] at hcache hkeys hcomplete
      -- the writing starts from what is left after the drops, which `commitWrites` takes together
      change (c.commitWrites p now load entries).cache.Alike N _ at hcache
      change _ = (c.commitWrites p now load entries).keys at hkeys
      change _ = (c.commitWrites p now load entries).complete at hcomplete
      unfold Cache.commitDraft
      dsimp only
      rw [hdrops, hkeys, hcomplete]
      by_cases hc : (c.commitWrites p now load entries).complete = true
      · rw [if_pos hc, if_pos hc]
        exact ⟨hcache.withLedger _ (alike_markRequested hcache.ledger now load.signature hN), rfl, rfl, rfl⟩
      · rw [if_neg hc, if_neg hc]
        exact ⟨hcache, rfl, rfl, rfl⟩

/-- A request comes to the same in both, provided that the loads to join may still ask. -/
theorem Alike.start (h : c.Alike N c') (name : String) (p : Policy κ ν) (key : Key κ) (inc : Includes)
    (force : Bool) (hN : ∀ load, c.ledger.inFlight.get? ⟨key, inc⟩ = some load → N load.seq) :
    (c.start name p key inc force).cache.Alike N (c'.start name p key inc force).cache
      ∧ (c'.start name p key inc force).events = (c.start name p key inc force).events
      ∧ (c'.start name p key inc force).result = (c.start name p key inc force).result := by
  unfold Cache.start
  rw [h.rejection, h.isOutdated]
  cases c.rejection name p key with
  | some f => exact ⟨h, rfl, rfl⟩
  | none =>
      dsimp only
      split
      · exact ⟨h, rfl, rfl⟩
      · rw [h.ledger.joinable? _ hN]
        cases c.ledger.joinable? ⟨key, inc⟩ with
        | some seq => exact ⟨h, rfl, rfl⟩
        | none =>
            dsimp only
            rw [h.draw.targets, h.draw.ledger.seq]
            exact ⟨h.draw.withLedger _ (h.draw.ledger.startLoad _ _), rfl, rfl⟩

end Cache

namespace Busy

variable {κ ν : Type} [EntryKey κ]

/-- The caches at work differ in their stamps only, and not in what these say to a load that may
still ask. -/
structure Alike (b b' : Busy κ ν) : Prop where
  /-- Everything but the cache is the same. -/
  rest : b' = { b with cache := b'.cache }
  /-- The caches are alike. -/
  cache : b.cache.Alike b.ledger.Awake b'.cache

/-- **Alike caches do the same, up to their stamps.** -/
theorem Alike.draft {b b' : Busy κ ν} (hb : Sound b) (hp : Placed b) (h : b.Alike b') (op : Op κ ν) :
    (b.draft op).Alike b.ledger.Awake (b'.draft op) := by
  have hpolicy : b'.policy = b.policy := by rw [h.rest]
  have hname : b'.name = b.name := by rw [h.rest]
  have hseq : b'.ledger.seq = b.ledger.seq := h.cache.ledger.seq
  have hnext : b.ledger.Awake (b.ledger.seq + 1) := Or.inr (Nat.lt_succ_self _)
  -- an operation stamps with the number it draws: no table holds a later one, and who asks with it
  -- is awake
  have hdraw := h.cache.draw
  have hle : b.ledger.seq + 1 ≤ b.cache.draw.ledger.seq := Nat.le_refl _
  cases op with
  | setMany now entries =>
      obtain ⟨hcache, hall⟩ := hdraw.writeLocally b.policy now entries hle
      rw [Busy.draft, Busy.draft, hpolicy, hseq, hall]
      split
      · exact ⟨hcache, rfl, rfl, rfl⟩
      · exact ⟨hcache, rfl, rfl, rfl⟩
  | replace now entries =>
      have hdrops : b'.cache.replaceDrops entries = b.cache.replaceDrops entries := by
        unfold Cache.replaceDrops
        rw [hseq]
        exact h.cache.stale _ hnext
      have hbase : (b.cache.replaceBase entries).Alike b.ledger.Awake (b'.cache.replaceBase entries) := by
        unfold Cache.replaceBase
        rw [hdrops, hseq]
        exact hdraw.removeAll _ hle
      have hbound : b.ledger.seq + 1 ≤ (b.cache.replaceBase entries).ledger.seq :=
        Nat.le_of_eq (Cache.seq_removeAll _ _ b.cache.draw).symm
      obtain ⟨hcache, hall⟩ := hbase.writeLocally b.policy now entries hbound
      rw [Busy.draft, Busy.draft, hpolicy, hseq, hdrops, hall]
      split
      · have hmarked := hcache.ledger.markWritten (.named Alias.all) now
        exact ⟨hcache.withLedger (·.markWritten (.named Alias.all) now) hmarked, rfl, rfl, rfl⟩
      · exact ⟨hcache, rfl, rfl, rfl⟩
  | update k f =>
      rw [Busy.draft, Busy.draft, h.cache.data, hseq]
      cases b.cache.data.get? k with
      | none => exact ⟨h.cache, rfl, rfl, rfl⟩
      | some v =>
          have hstamped := hdraw.ledger.stamp k hle
          exact ⟨(hdraw.withData _).withLedger (·.stamp k (b.ledger.seq + 1)) hstamped, rfl, rfl, rfl⟩
  | delete key =>
      have hremoved := hdraw.removeEach (b.cache.resolve key) hle
      have hcache := hdraw.removeAll (b.cache.resolve key) hle
      rw [Busy.draft, Busy.draft, h.cache.resolve, hseq, hremoved]
      refine ⟨?_, rfl, rfl, rfl⟩
      rw [Cache.removeEach_fst, Cache.removeEach_fst]
      exact hcache
  | clear =>
      rw [Busy.draft, Busy.draft, hseq]
      have hcleared := (hdraw.ledger.stampClear (b.ledger.seq + 1)).forgetAll
      exact ⟨(hdraw.withData _).withLedger (fun l => (l.stampClear _).forgetAll) hcleared, rfl, rfl, rfl⟩
  | markOutdated key =>
      have hbound := Nat.le_of_eq
        (Cache.notes_markAlias b.cache.draw.ledger key (b.ledger.seq + 1)).counter.symm
      obtain ⟨hledger, hmarked⟩ := Cache.alike_markEach
        (Cache.alike_markAlias hdraw.ledger key hle) (b.cache.resolve key) hbound
      rw [Busy.draft, Busy.draft, h.cache.resolve, hseq]
      refine ⟨⟨?_, hledger⟩, ?_, rfl, rfl⟩
      · rw [h.cache.rest]
      · exact congrArg (fun ks => [Event.outdated ks]) hmarked
  | markAllOutdated =>
      rw [Busy.draft, Busy.draft, hseq, h.cache.data]
      have hmarked := hdraw.ledger.markAllOutdated (b.ledger.seq + 1)
      exact ⟨hdraw.withLedger (·.markAllOutdated (b.ledger.seq + 1)) hmarked, rfl, rfl, rfl⟩
  | purge tracked cutoff =>
      rw [Busy.draft, Busy.draft, h.cache.expired, hseq]
      cases b.cache.expired tracked cutoff with
      | nil => exact ⟨h.cache, rfl, rfl, rfl⟩
      | cons k ks =>
          have hcache := hdraw.removeAll (k :: ks) hle
          have hbound := Nat.le_of_eq (Cache.seq_removeAll (k :: ks) (b.ledger.seq + 1) b.cache.draw).symm
          have hmarked := hcache.ledger.markOutdated (.named Alias.all) hbound
          exact ⟨hcache.withLedger (·.markOutdated (.named Alias.all) _) hmarked, rfl, rfl, rfl⟩
  | register name r =>
      refine ⟨⟨?_, h.cache.ledger⟩, rfl, rfl, rfl⟩
      show b'.cache.register name r = _
      rw [h.cache.rest]
      rfl
  | start key inc force =>
      obtain ⟨hcache, hevents, hresult⟩ := h.cache.start b.name b.policy key inc force
        fun load hload => Or.inl (hb.mem_running (hp.held _ load hload))
      rw [Busy.draft, Busy.draft, hname, hpolicy]
      exact ⟨hcache, hevents, congrArg Outcome.started hresult, rfl⟩
  | commit n now answer =>
      have hpending : b'.pending? n = b.pending? n := by rw [h.rest]; rfl
      rw [Busy.draft, Busy.draft, hpending, hname, hpolicy]
      cases hload : b.pending? n with
      | none => exact ⟨h.cache, rfl, rfl, rfl⟩
      | some load =>
          have hmem := (pending?_spec hload).1
          exact h.cache.commitDraft b.name b.policy now (Or.inl (hb.mem_running hmem))
            (hb.drawn_pending hmem) answer
  | abort n =>
      have hloose : b'.loose? n = b.loose? n := by rw [h.rest]; rfl
      rw [Busy.draft, Busy.draft, hloose, hname]
      cases b.loose? n with
      | none => exact ⟨h.cache, rfl, rfl, rfl⟩
      | some load =>
          have hfin := h.cache.ledger.finishLoad load.signature load.seq load.targets
          exact ⟨h.cache.withLedger (·.finishLoad _ _ _) hfin, rfl, rfl, rfl⟩

/-- One step with `tidy` in place of the settling. -/
def stepWith (tidy : Ledger κ → Ledger κ) (b : Busy κ ν) (op : Op κ ν) : Busy κ ν :=
  b.after (b.changeWith tidy op)

/-- Some steps with `tidy` in place of the settling, one after the other. -/
def runWith (tidy : Ledger κ → Ledger κ) (b : Busy κ ν) (ops : List (Op κ ν)) : Busy κ ν :=
  ops.foldl (stepWith tidy) b

theorem stepWith_settle (b : Busy κ ν) (op : Op κ ν) : b.stepWith Ledger.settle op = b.step op := by
  rw [stepWith, changeWith_settle, step_eq]

theorem runWith_settle (b : Busy κ ν) (ops : List (Op κ ν)) :
    b.runWith Ledger.settle ops = b.run ops := by
  have hstep : stepWith Ledger.settle = (step : Busy κ ν → Op κ ν → Busy κ ν) := by
    funext b op
    exact stepWith_settle b op
  unfold runWith run
  rw [hstep]

/-- A load that may ask after a step could ask before it. -/
theorem awake_of_step {b : Busy κ ν} {op : Op κ ν} {n : Nat} (h : (b.step op).ledger.Awake n) :
    b.ledger.Awake n := by
  rcases h with hrun | hlt
  · cases b.step_case op with
    | idle hl _ _ _ _ => rw [hl] at hrun; exact Or.inl hrun
    | change W T hturns _ _ _ _ => rw [hturns.running] at hrun; exact Or.inl hrun
    | starts load hseq _ hl _ _ _ _ =>
        rw [hl, Ledger.running_startLoad, List.mem_append, List.mem_singleton] at hrun
        rcases hrun with hrun | rfl
        · exact Or.inl hrun
        · exact Or.inr (by rw [hseq]; exact Nat.lt_succ_self _)
    | ends load _ W T hturns _ _ _ _ =>
        rw [hturns.running, Ledger.running_finishLoad] at hrun
        exact Or.inl (List.mem_filter.1 hrun).1
  · exact Or.inr (Nat.lt_of_le_of_lt (seq_le_step b op) hlt)

/-- **One step of both: the same events and the same answer, and alike caches again.** -/
theorem Alike.step {b b' : Busy κ ν} (hb : Sound b) (hp : Placed b) (h : b.Alike b') (op : Op κ ν) :
    (b'.changeWith id op).events = (b.change op).events
      ∧ (b'.changeWith id op).result = (b.change op).result
      ∧ (b.step op).Alike (b'.stepWith id op) := by
  have hcache : (b.step op).cache = ((b.draft op).finish Ledger.settle).cache := by
    rw [cache_step, ← changeWith_settle]
    rfl
  have hawake : (b.step op).ledger.Awake = (b.draft op).cache.ledger.Awake := by
    rw [ledger, hcache, Draft.awake_finish]
  obtain ⟨hevents, hresult, halike⟩ :=
    (h.draft hb hp op).finish fun n hn => awake_of_step (hawake ▸ hn)
  have hanswer : (b'.changeWith id op).result = (b.change op).result := by
    rw [← changeWith_settle]
    exact hresult
  refine ⟨?_, hanswer, ?_, ?_⟩
  · rw [← changeWith_settle]
    exact hevents
  · have hname : b'.name = b.name := by rw [h.rest]
    have hpolicy : b'.policy = b.policy := by rw [h.rest]
    have hpending : b'.pending = b.pending := by rw [h.rest]
    have hbroken : b'.broken = b.broken := by rw [h.rest]
    rw [step_eq]
    simp only [stepWith, after, hanswer, hname, hpolicy, hpending, hbroken]
  · rw [hawake, hcache]
    exact halike

theorem alike_run (name : String) (policy : Policy κ ν) (ops : List (Op κ ν)) :
    ((new name policy).run ops).Alike ((new name policy).runWith id ops) := by
  have key : ∀ {b b' : Busy κ ν}, Sound b → Placed b → b.Alike b' →
      (b.run ops).Alike (b'.runWith id ops) := by
    induction ops with
    | nil => exact fun _ _ h => h
    | cons op ops ih =>
        intro b b' hb hp h
        exact ih (sound_step hb op) (placed_step hb hp op) (h.step hb hp op).2.2
  refine key (sound_new name policy) (placed_new name policy) ⟨rfl, rfl, ?_⟩
  exact
    { books := rfl
      stamps := fun _ _ _ => rfl
      invalidated := fun _ _ _ => rfl
      stampsBelow := fun _ _ _ => rfl
      invalidatedBelow := fun _ _ _ => rfl }

/-! ## What is left when no load runs -/

/-- An operation that does not settle breaks off, leaves the ledger, or starts a load. -/
theorem draft_cases (b : Busy κ ν) (op : Op κ ν) :
    (b.draft op).settles = true ∨ (b.draft op).result.isBrokenOff = true
      ∨ (b.draft op).cache.ledger = b.ledger ∨ (b.draft op).cache.ledger.running ≠ [] := by
  cases op with
  | setMany now entries =>
      rw [draft]
      split
      · exact Or.inl rfl
      · exact Or.inr (Or.inl rfl)
  | replace now entries =>
      rw [draft]
      split
      · exact Or.inl rfl
      · exact Or.inr (Or.inl rfl)
  | update k f =>
      rw [draft]
      cases b.cache.data.get? k with
      | none => exact Or.inr (Or.inr (Or.inl rfl))
      | some v => exact Or.inl rfl
  | purge tracked cutoff =>
      rw [draft]
      cases b.cache.expired tracked cutoff with
      | nil => exact Or.inr (Or.inr (Or.inl rfl))
      | cons k ks => exact Or.inl rfl
  | register name r => exact Or.inr (Or.inr (Or.inl rfl))
  | start key inc force =>
      right; right
      show (b.cache.start b.name b.policy key inc force).cache.ledger = _
        ∨ (b.cache.start b.name b.policy key inc force).cache.ledger.running ≠ []
      rcases b.cache.start_cases b.name b.policy key inc force with ⟨hcache, _⟩ | ⟨_, hstart⟩
      · exact Or.inl (by rw [hcache])
      · right
        rw [hstart]
        dsimp only
        rw [Ledger.running_startLoad]
        exact List.append_ne_nil_of_right_ne_nil _ (List.cons_ne_nil _ _)
  | commit n now answer =>
      rw [draft]
      cases b.pending? n with
      | none => exact Or.inr (Or.inr (Or.inl rfl))
      | some load =>
          cases answer with
          | error cause => exact Or.inl rfl
          | ok entries =>
              dsimp only
              rw [Cache.commitDraft]
              split
              · exact Or.inl rfl
              · exact Or.inr (Or.inl rfl)
  | abort n =>
      rw [draft]
      cases b.loose? n with
      | none => exact Or.inr (Or.inr (Or.inl rfl))
      | some load => exact Or.inl rfl
  | _ => exact Or.inl rfl

/-- No stamp is left unless a load runs. -/
def Settled (b : Busy κ ν) : Prop :=
  b.ledger.running = [] → b.ledger.stamps = .empty ∧ b.ledger.invalidated = .empty

theorem settled_step (b : Busy κ ν) (op : Op κ ν) :
    (b.step op).Settled ∨ b.breaksOff op = true ∨ (b.step op).ledger = b.ledger := by
  have hledger : (b.step op).ledger = ((b.draft op).finish Ledger.settle).cache.ledger := by
    rw [ledger, cache_step, ← changeWith_settle]
    rfl
  have hbreaks : b.breaksOff op = (b.draft op).result.isBrokenOff := by
    rw [breaksOff, ← changeWith_settle, changeWith, Draft.finish]
    split <;> rfl
  unfold Settled
  rw [hledger, hbreaks, Draft.finish]
  by_cases hsettles : (b.draft op).settles = true
  · rw [if_pos hsettles]
    exact Or.inl (Ledger.tables_settle _)
  · rw [if_neg hsettles]
    rcases (b.draft_cases op).resolve_left hsettles with hbroken | hsame | hrunning
    · exact Or.inr (Or.inl hbroken)
    · exact Or.inr (Or.inr hsame)
    · exact Or.inl fun hnone => absurd hnone hrunning

/-- The last step of the run that changed the ledger broke off. -/
def EndsBroken (b : Busy κ ν) (ops : List (Op κ ν)) : Prop :=
  ∃ before op after, ops = before ++ op :: after ∧ (b.run before).breaksOff op = true
    ∧ (b.run ops).ledger = ((b.run before).step op).ledger

theorem settled_run (name : String) (policy : Policy κ ν) (ops : List (Op κ ν)) :
    ((new name policy).run ops).Settled ∨ (new name policy).EndsBroken ops := by
  induction ops using List.reverseRecOn with
  | nil => exact Or.inl fun _ => ⟨rfl, rfl⟩
  | append_singleton ops op ih =>
      have hlast : (new name policy).run (ops ++ [op]) = ((new name policy).run ops).step op := by
        rw [run_append, run_cons, run_nil]
      rcases ((new name policy).run ops).settled_step op with hsettled | hbroken | hsame
      · exact Or.inl (hlast ▸ hsettled)
      · exact Or.inr ⟨ops, op, [], rfl, hbroken, by rw [hlast]⟩
      · -- nothing has changed, so it is as it was before the step
        rcases ih with hsettled | ⟨before, op', after, rfl, hbroken, hledger⟩
        · left
          unfold Settled at hsettled ⊢
          rw [hlast, hsame]
          exact hsettled
        · right
          exact ⟨before, op', after ++ [op], by simp, hbroken, by rw [hlast, hsame, hledger]⟩

/--
**Forgetting stamps is unobservable.**

A cache and one whose settling does nothing, run side by side, differ in nothing but the two tables of
stamps after any steps, and whatever the next step is, both publish the same events and give the same
answer. When no load is under way, both tables of the cache are empty, unless the last step that changed
its ledger broke off before it could settle; so they are empty then as long as no step breaks off.
-/
theorem forgetting_unobservable (name : String) (policy : Policy κ ν) (ops : List (Op κ ν)) :
    let b := (new name policy).run ops
    let b' := (new name policy).runWith id ops
    (b'.cache.data = b.cache.data ∧ b'.ledger.metas = b.ledger.metas
        ∧ b' = { b with cache := { b.cache with
            ledger := b.ledger.withStamps b'.ledger.stamps b'.ledger.invalidated } })
      ∧ (∀ op, (b'.changeWith id op).events = (b.change op).events
          ∧ (b'.changeWith id op).result = (b.change op).result)
      ∧ (b.pending = [] →
          (b.ledger.stamps = .empty ∧ b.ledger.invalidated = .empty)
            ∨ (new name policy).EndsBroken ops)
      ∧ (b.pending = [] → Along (fun b op => b.breaksOff op = false) (new name policy) ops →
          b.ledger.stamps = .empty ∧ b.ledger.invalidated = .empty) := by
  intro b b'
  have hb : Sound b := sound_run (sound_new name policy) ops
  have hp : Placed b := placed_run (sound_new name policy) (placed_new name policy) ops
  have halike : b.Alike b' := alike_run name policy ops
  have hrest : b' = { b with cache := { b.cache with
      ledger := b.ledger.withStamps b'.ledger.stamps b'.ledger.invalidated } } := by
    have hcache := halike.cache.rest
    rw [halike.cache.ledger.books] at hcache
    rw [← hcache]
    exact halike.rest
  have htables : b.pending = [] →
      (b.ledger.stamps = .empty ∧ b.ledger.invalidated = .empty)
        ∨ (new name policy).EndsBroken ops := by
    intro hnone
    have hrunning : b.ledger.running = [] := by
      rw [running_reachable ((Reachable.init name policy).run ops)]
      exact congrArg _ hnone
    exact (settled_run name policy ops).imp_left fun hsettled => hsettled hrunning
  refine ⟨⟨halike.cache.data, halike.cache.ledger.metas, hrest⟩, fun op => ?_, htables, ?_⟩
  · obtain ⟨hevents, hresult, _⟩ := halike.step hb hp op
    exact ⟨hevents, hresult⟩
  · intro hnone halong
    refine (htables hnone).resolve_right ?_
    rintro ⟨before, op, after, rfl, hbroken, _⟩
    rw [halong.holds_at] at hbroken
    exact Bool.noConfusion hbroken

/-- A local write that breaks off at its second entry leaves the stamp of the first, although no load is
under way; and the commit of a load that breaks off leaves what was noted while the load ran. -/
theorem stamps_left_behind :
    let hook : Policy String Nat := { merge := fun _ v => if v = 0 then none else some v }
    let written := (new "entries" hook).run [.setMany ⟨0, 0⟩ [("a", 1), ("b", 0)]]
    let loaded := (new "entries" hook).run
      [.start (.single "a") Includes.none false, .markOutdated (.single "a"),
        .commit 1 ⟨0, 0⟩ (.ok [("a", 0)])]
    (Reachable written ∧ written.pending = [] ∧ written.broken = []
        ∧ written.ledger.stamps.get? "a" = some 1 ∧ written.ledger.stamps ≠ .empty)
      ∧ (Reachable loaded ∧ loaded.pending = []
        ∧ loaded.ledger.invalidated.get? (.key "a") = some 2
        ∧ loaded.ledger.invalidated ≠ .empty) := by
  intro hook written loaded
  have hstamp : written.ledger.stamps.get? "a" = some 1 := by decide +kernel
  have hnoted : loaded.ledger.invalidated.get? (.key "a") = some 2 := by decide +kernel
  refine ⟨⟨(Reachable.init "entries" hook).run _, rfl, rfl, hstamp, fun hempty => ?_⟩,
    (Reachable.init "entries" hook).run _, ?_, hnoted, fun hempty => ?_⟩
  · rw [hempty] at hstamp
    cases hstamp
  · decide +kernel
  · rw [hempty] at hnoted
    cases hnoted

end Busy

end Larder
