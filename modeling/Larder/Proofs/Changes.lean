import Larder.Proofs.Pieces

/-!
# What each operation of a cache notes, and what it makes fresh

For every operation two things are said: which keys and targets it notes in the books, under which
number (`turns_…`), and which targets can be fresh after it that were not before (`fresh_of_…`). For
the commit of a load it is also said what the load may not touch: a key that was written since the
load started keeps its value and its record.
-/

namespace Larder

theorem Ledger.fresh_settle {κ : Type} [DecidableEq κ] (l : Ledger κ) (t : Target κ) :
    l.settle.Fresh t ↔ l.Fresh t :=
  Ledger.fresh_congr (Ledger.meta?_settle l t)

namespace Cache

variable {κ ν : Type} [EntryKey κ]

/-! ## Writing -/

theorem setMany_eq (c : Cache κ ν) (p : Policy κ ν) (now : Instant) (entries : List (κ × ν)) :
    c.setMany p now entries
      = match writeLocally p now (c.ledger.seq + 1) entries c.draw with
        | (c', false) => { cache := c', result := false }
        | (c', true) =>
          { cache := c'.settle, events := [.updated (entries.map Prod.fst)], result := true } := rfl

/-- Writing settles the books at its end, unless it breaks off before. -/
theorem ledger_setMany (c : Cache κ ν) (p : Policy κ ν) (now : Instant) (entries : List (κ × ν)) :
    (c.setMany p now entries).cache.ledger
        = (writeLocally p now (c.ledger.seq + 1) entries c.draw).1.ledger
      ∨ (c.setMany p now entries).cache.ledger
        = (writeLocally p now (c.ledger.seq + 1) entries c.draw).1.ledger.settle := by
  rw [setMany_eq]
  rcases writeLocally p now (c.ledger.seq + 1) entries c.draw with ⟨c', _ | _⟩
  · exact Or.inl rfl
  · exact Or.inr rfl

theorem turns_setMany (c : Cache κ ν) (p : Policy κ ν) (now : Instant) (entries : List (κ × ν)) :
    c.ledger.draw.Turns (c.setMany p now entries).cache.ledger
      (fun k => k ∈ writtenKeys p entries c.data)
      (fun t => t ∈ (writtenKeys p entries c.data).map Target.key) (c.ledger.seq + 1) :=
  ⟨_, stamps_writeLocally p now (c.ledger.seq + 1) entries c.draw, ledger_setMany c p now entries⟩

theorem fresh_of_setMany {c : Cache κ ν} {p : Policy κ ν} {now : Instant}
    {entries : List (κ × ν)} {t : Target κ} (h : (c.setMany p now entries).cache.ledger.Fresh t) :
    t ∈ (writtenKeys p entries c.data).map Target.key ∨ c.ledger.Fresh t := by
  have hfresh : (writeLocally p now (c.ledger.seq + 1) entries c.draw).1.ledger.Fresh t := by
    rcases ledger_setMany c p now entries with hl | hl
    · rw [← hl]; exact h
    · rw [hl, Ledger.fresh_settle] at h; exact h
  exact fresh_of_writeLocally (c := c.draw) hfresh

/-- The keys that `replace` evicts. -/
def replaceDrops (c : Cache κ ν) (entries : List (κ × ν)) : List κ :=
  c.stale (entries.map Prod.fst) (c.ledger.seq + 1)

/-- The cache from which `replace` starts to write. -/
def replaceBase (c : Cache κ ν) (entries : List (κ × ν)) : Cache κ ν :=
  c.draw.removeAll (c.replaceDrops entries) (c.ledger.seq + 1)

/-- The keys that `replace` writes. -/
def replaceWrites (c : Cache κ ν) (p : Policy κ ν) (entries : List (κ × ν)) : List κ :=
  writtenKeys p entries (c.replaceBase entries).data

theorem replace_eq (c : Cache κ ν) (p : Policy κ ν) (now : Instant) (entries : List (κ × ν)) :
    c.replace p now entries
      = match writeLocally p now (c.ledger.seq + 1) entries (c.replaceBase entries) with
        | (c', false) => { cache := c', result := false }
        | (c', true) =>
          { cache := (c'.withLedger fun l => l.markWritten (.named Alias.all) now).settle
            events := (if (c.replaceDrops entries).isEmpty then []
              else [.deleted (c.replaceDrops entries)]) ++ [.updated (entries.map Prod.fst)]
            result := true } := rfl

theorem ledger_replace (c : Cache κ ν) (p : Policy κ ν) (now : Instant) (entries : List (κ × ν)) :
    (c.replace p now entries).cache.ledger
        = (writeLocally p now (c.ledger.seq + 1) entries (c.replaceBase entries)).1.ledger
      ∨ ((c.replace p now entries).result = true ∧ (c.replace p now entries).cache.ledger
        = ((writeLocally p now (c.ledger.seq + 1) entries (c.replaceBase entries)).1.ledger.markWritten
            (.named Alias.all) now).settle) := by
  rw [replace_eq]
  rcases writeLocally p now (c.ledger.seq + 1) entries (c.replaceBase entries) with ⟨c', _ | _⟩
  · exact Or.inl rfl
  · exact Or.inr ⟨rfl, rfl⟩

theorem turns_replace (c : Cache κ ν) (p : Policy κ ν) (now : Instant) (entries : List (κ × ν)) :
    c.ledger.draw.Turns (c.replace p now entries).cache.ledger
      (fun k => k ∈ c.replaceDrops entries ∨ k ∈ c.replaceWrites p entries)
      (fun t => t ∈ (c.replaceDrops entries).map Target.key
        ∨ t ∈ (c.replaceWrites p entries).map Target.key) (c.ledger.seq + 1) := by
  have hnotes := Ledger.Notes.trans
    (stamps_removeAll (c.replaceDrops entries) (c.ledger.seq + 1) c.draw)
    (stamps_writeLocally p now (c.ledger.seq + 1) entries (c.replaceBase entries))
  rcases ledger_replace c p now entries with hl | ⟨_, hl⟩
  · exact ⟨_, hnotes, Or.inl hl⟩
  · exact ⟨_, hnotes.then_sameBooks (Ledger.sameBooks_markWritten _ (.named Alias.all) now), Or.inr hl⟩

theorem fresh_of_replace {c : Cache κ ν} {p : Policy κ ν} {now : Instant}
    {entries : List (κ × ν)} {t : Target κ} (h : (c.replace p now entries).cache.ledger.Fresh t) :
    t ∈ (c.replaceWrites p entries).map Target.key
      ∨ (t = .named Alias.all ∧ (c.replace p now entries).result = true) ∨ c.ledger.Fresh t := by
  -- whether or not the writing is completed, entries become fresh by being written
  have key : (writeLocally p now (c.ledger.seq + 1) entries (c.replaceBase entries)).1.ledger.Fresh t →
      t ∈ (c.replaceWrites p entries).map Target.key ∨ c.ledger.Fresh t := by
    intro hf
    rcases fresh_of_writeLocally hf with hw | hf
    · exact Or.inl hw
    · exact Or.inr (fresh_of_removeAll (c := c.draw) hf)
  rcases ledger_replace c p now entries with hl | ⟨hresult, hl⟩
  · rw [hl] at h
    rcases key h with hw | hf
    · exact Or.inl hw
    · exact Or.inr (Or.inr hf)
  · rw [hl, Ledger.fresh_settle, Ledger.fresh_markWritten] at h
    rcases h with rfl | h
    · exact Or.inr (Or.inl ⟨rfl, hresult⟩)
    · rcases key h with hw | hf
      · exact Or.inl hw
      · exact Or.inr (Or.inr hf)

theorem ledger_update {c : Cache κ ν} {k : κ} {v : ν} (h : c.data.get? k = some v) (f : ν → ν) :
    (c.update k f).cache.ledger = (c.ledger.draw.stamp k (c.ledger.seq + 1)).settle := by
  unfold update
  rw [h]
  rfl

theorem data_update {c : Cache κ ν} {k : κ} {v : ν} (h : c.data.get? k = some v) (f : ν → ν) :
    (c.update k f).cache.data = c.data.insert k (f v) := by
  unfold update
  rw [h]
  rfl

theorem update_of_none {c : Cache κ ν} {k : κ} (h : c.data.get? k = none) (f : ν → ν) :
    (c.update k f).cache = c := by
  unfold update
  rw [h]

theorem turns_update {c : Cache κ ν} {k : κ} {v : ν} (h : c.data.get? k = some v) (f : ν → ν) :
    c.ledger.draw.Turns (c.update k f).cache.ledger (fun j => j ∈ [k])
      (fun t => t ∈ [k].map Target.key) (c.ledger.seq + 1) :=
  ⟨_, Ledger.stamps_stamp c.ledger.draw k (c.ledger.seq + 1), Or.inr (ledger_update h f)⟩

theorem fresh_of_update {c : Cache κ ν} {k : κ} {f : ν → ν} {t : Target κ}
    (h : (c.update k f).cache.ledger.Fresh t) : c.ledger.Fresh t := by
  cases hk : c.data.get? k with
  | none => rw [update_of_none hk f] at h; exact h
  | some v => rw [ledger_update hk f, Ledger.fresh_settle] at h; exact h

/-! ## Removing -/

theorem ledger_delete (c : Cache κ ν) (key : Key κ) :
    (c.delete key).cache.ledger
      = (c.draw.removeAll (c.resolve key) (c.ledger.seq + 1)).ledger.settle := by
  rw [← removeEach_fst]
  rfl

theorem turns_delete (c : Cache κ ν) (key : Key κ) :
    c.ledger.draw.Turns (c.delete key).cache.ledger (fun k => k ∈ c.resolve key)
      (fun t => t ∈ (c.resolve key).map Target.key) (c.ledger.seq + 1) :=
  ⟨_, stamps_removeAll (c.resolve key) (c.ledger.seq + 1) c.draw, Or.inr (ledger_delete c key)⟩

theorem fresh_of_delete {c : Cache κ ν} {key : Key κ} {t : Target κ}
    (h : (c.delete key).cache.ledger.Fresh t) : c.ledger.Fresh t := by
  rw [ledger_delete, Ledger.fresh_settle] at h
  exact fresh_of_removeAll (c := c.draw) h

theorem turns_clear (c : Cache κ ν) :
    c.ledger.draw.Turns c.clear.cache.ledger (fun _ => True) (fun _ => True) (c.ledger.seq + 1) :=
  ((Ledger.notes_stampClear c.ledger.draw (c.ledger.seq + 1)).then_sameBooks
    (Ledger.sameBooks_forgetAll _)).turns_settle

theorem not_fresh_clear (c : Cache κ ν) (t : Target κ) : ¬ c.clear.cache.ledger.Fresh t := by
  intro h
  exact Ledger.not_fresh_forgetAll _ t ((Ledger.fresh_settle _ t).1 h)

theorem purge_of_nil {c : Cache κ ν} {tracked : List (Key κ)} {cutoff : Instant}
    (h : c.expired tracked cutoff = []) : (c.purge tracked cutoff).cache = c := by
  unfold purge
  rw [h]

theorem cache_purge {c : Cache κ ν} {tracked : List (Key κ)} {cutoff : Instant}
    (h : c.expired tracked cutoff ≠ []) :
    (c.purge tracked cutoff).cache
      = ((c.draw.removeAll (c.expired tracked cutoff) (c.ledger.seq + 1)).withLedger
          fun l => l.markOutdated (.named Alias.all) (c.ledger.seq + 1)).settle := by
  unfold purge
  split
  · rename_i heq
    exact absurd heq h
  · rfl

theorem ledger_purge {c : Cache κ ν} {tracked : List (Key κ)} {cutoff : Instant}
    (h : c.expired tracked cutoff ≠ []) :
    (c.purge tracked cutoff).cache.ledger
      = ((c.draw.removeAll (c.expired tracked cutoff) (c.ledger.seq + 1)).ledger.markOutdated
          (.named Alias.all) (c.ledger.seq + 1)).settle := by
  rw [cache_purge h]
  rfl

theorem turns_purge {c : Cache κ ν} {tracked : List (Key κ)} {cutoff : Instant}
    (h : c.expired tracked cutoff ≠ []) :
    c.ledger.draw.Turns (c.purge tracked cutoff).cache.ledger
      (fun k => k ∈ c.expired tracked cutoff ∨ False)
      (fun t => t ∈ (c.expired tracked cutoff).map Target.key ∨ t = .named Alias.all)
      (c.ledger.seq + 1) :=
  ⟨_, Ledger.Notes.trans
      (stamps_removeAll (c.expired tracked cutoff) (c.ledger.seq + 1) c.draw)
      (Ledger.notes_markOutdated _ (.named Alias.all) (c.ledger.seq + 1)),
    Or.inr (ledger_purge h)⟩

theorem fresh_of_purge {c : Cache κ ν} {tracked : List (Key κ)} {cutoff : Instant} {t : Target κ}
    (h : (c.purge tracked cutoff).cache.ledger.Fresh t) : c.ledger.Fresh t := by
  by_cases he : c.expired tracked cutoff = []
  · rw [purge_of_nil he] at h; exact h
  · rw [ledger_purge he, Ledger.fresh_settle, Ledger.fresh_markOutdated] at h
    exact fresh_of_removeAll (c := c.draw) h.2

theorem not_fresh_purge {c : Cache κ ν} {tracked : List (Key κ)} {cutoff : Instant}
    (he : c.expired tracked cutoff ≠ []) :
    ¬ (c.purge tracked cutoff).cache.ledger.Fresh (.named Alias.all) := by
  rw [ledger_purge he, Ledger.fresh_settle, Ledger.fresh_markOutdated]
  rintro ⟨hne, _⟩
  exact hne rfl

/-! ## Invalidating -/

theorem turns_markAllOutdated (c : Cache κ ν) :
    c.ledger.draw.Turns c.markAllOutdated.cache.ledger (fun _ => False) (fun _ => True)
      (c.ledger.seq + 1) :=
  (Ledger.notes_markAllOutdated c.ledger.draw (c.ledger.seq + 1)).turns_settle

theorem not_fresh_markAllOutdated (c : Cache κ ν) (t : Target κ) :
    ¬ c.markAllOutdated.cache.ledger.Fresh t := by
  intro h
  exact Ledger.not_fresh_markAllOutdated _ _ t ((Ledger.fresh_settle _ t).1 h)

/-- The ledger with the alias of a key marked outdated, if the key is one. -/
def markAlias (l : Ledger κ) (key : Key κ) (seq : Nat) : Ledger κ :=
  match key.asAlias with
  | some a => l.markOutdated (.named a) seq
  | none => l

theorem ledger_markOutdated (c : Cache κ ν) (key : Key κ) :
    (c.markOutdated key).cache.ledger
      = (markEach (c.ledger.seq + 1) (c.resolve key)
          (markAlias c.ledger.draw key (c.ledger.seq + 1))).1.settle := rfl

theorem notes_markAlias (l : Ledger κ) (key : Key κ) (seq : Nat) :
    l.Notes (markAlias l key seq) (fun _ => False)
      (fun t => t ∈ (key.asAlias.map Target.named).toList) seq := by
  unfold markAlias
  cases key.asAlias with
  | none =>
      exact (Ledger.Notes.of_sameBooks (Ledger.SameBooks.refl l) seq).congr (by simp) (by simp)
  | some a => exact (Ledger.notes_markOutdated l (.named a) seq).congr (by simp) (by simp)

theorem turns_markOutdated (c : Cache κ ν) (key : Key κ) :
    c.ledger.draw.Turns (c.markOutdated key).cache.ledger (fun _ => False)
      (fun t => t ∈ c.targets key) (c.ledger.seq + 1) := by
  have hnotes := (notes_markAlias c.ledger.draw key (c.ledger.seq + 1)).trans
    (notes_markEach (c.resolve key) (c.ledger.seq + 1) _)
  refine ⟨_, hnotes.congr (by simp) (fun t => ?_), Or.inr (ledger_markOutdated c key)⟩
  unfold targets
  rw [List.mem_append, or_comm]

theorem fresh_of_markOutdated {c : Cache κ ν} {key : Key κ} {t : Target κ}
    (h : (c.markOutdated key).cache.ledger.Fresh t) : t ∉ c.targets key ∧ c.ledger.Fresh t := by
  rw [ledger_markOutdated, Ledger.fresh_settle] at h
  obtain ⟨hkeys, hf⟩ := fresh_of_markEach h
  have halias : t ∉ (key.asAlias.map Target.named).toList ∧ c.ledger.draw.Fresh t := by
    unfold markAlias at hf
    cases ha : key.asAlias with
    | none => rw [ha] at hf; exact ⟨List.not_mem_nil, hf⟩
    | some a =>
        rw [ha] at hf
        obtain ⟨hne, hf⟩ := (Ledger.fresh_markOutdated _ (.named a) t _).1 hf
        exact ⟨fun hmem => hne (List.mem_singleton.1 hmem).symm, hf⟩
  refine ⟨?_, halias.2⟩
  unfold targets
  rw [List.mem_append]
  rintro (hmem | hmem)
  · exact hkeys hmem
  · exact halias.1 hmem

/-! ## The start of a load -/

/-- The load that a cache starts for a key, if it starts one. -/
def nextLoad (c : Cache κ ν) (key : Key κ) (inc : Includes) : PendingLoad κ :=
  ⟨⟨key, inc⟩, c.ledger.seq + 1, c.targets key⟩

/-- Asking for a load starts the next one, or changes nothing. -/
theorem start_cases (c : Cache κ ν) (name : String) (p : Policy κ ν) (key : Key κ)
    (inc : Includes) (force : Bool) :
    ((c.start name p key inc force).cache = c
        ∧ ∀ load, (c.start name p key inc force).result ≠ .begun load)
      ∨ (c.ledger.joinable? ⟨key, inc⟩ = none
        ∧ c.start name p key inc force =
          { cache := { c with
              ledger := c.ledger.draw.startLoad ⟨key, inc⟩ ⟨c.ledger.seq + 1, c.targets key⟩ }
            events := [.loading key]
            result := .begun (c.nextLoad key inc) }) := by
  unfold start
  cases c.rejection name p key with
  | some f => exact Or.inl ⟨rfl, fun load h => by cases h⟩
  | none =>
      by_cases hfresh : (!force && !c.isOutdated key inc) = true
      · -- the key is fresh and the load not forced
        refine Or.inl ?_
        simp only [hfresh, ↓reduceIte]
        exact ⟨trivial, fun load h => by cases h⟩
      · simp only [hfresh]
        cases c.ledger.joinable? ⟨key, inc⟩ with
        | some seq => exact Or.inl ⟨rfl, fun load h => by cases h⟩
        | none => exact Or.inr ⟨rfl, rfl⟩

/-- A load that is wanted and may be run joins the one that runs already, or starts. -/
theorem start_of_wanted {c : Cache κ ν} {name : String} {p : Policy κ ν} {key : Key κ}
    {inc : Includes} {force : Bool} (hkey : c.rejection name p key = none)
    (hwanted : force = true ∨ c.isOutdated key inc = true) :
    c.start name p key inc force =
      match c.ledger.joinable? ⟨key, inc⟩ with
      | some seq => { cache := c, result := .joined seq }
      | none =>
        { cache := { c with
            ledger := c.ledger.draw.startLoad ⟨key, inc⟩ ⟨c.ledger.seq + 1, c.targets key⟩ }
          events := [.loading key]
          result := .begun (c.nextLoad key inc) } := by
  have hload : (!force && !c.isOutdated key inc) = false := by
    rcases hwanted with h | h <;> simp [h]
  unfold start
  simp only [hkey, hload]
  cases c.ledger.joinable? ⟨key, inc⟩ with
  | some seq => rfl
  | none => rfl

theorem fresh_of_start {c : Cache κ ν} {name : String} {p : Policy κ ν} {key : Key κ}
    {inc : Includes} {force : Bool} {t : Target κ}
    (h : (c.start name p key inc force).cache.ledger.Fresh t) : c.ledger.Fresh t := by
  rcases c.start_cases name p key inc force with ⟨hcache, _⟩ | ⟨_, hstart⟩
  · rw [hcache] at h
    exact h
  · rw [hstart] at h
    exact (Ledger.fresh_startLoad c.ledger.draw _ _ t).1 h

/-! ## The end of a load -/

/-- The cache with the end of a load noted. -/
def finished (c : Cache κ ν) (load : PendingLoad κ) : Cache κ ν :=
  c.withLedger fun l => l.finishLoad load.signature load.seq load.targets

/-- The keys that the commit of a load removes. -/
def commitDrops (c : Cache κ ν) (load : PendingLoad κ) (entries : List (κ × ν)) : List κ :=
  if load.signature.key.isAll then (c.finished load).stale (entries.map Prod.fst) load.seq else []

/-- What the commit of a load writes. -/
def commitWrites (c : Cache κ ν) (p : Policy κ ν) (now : Instant) (load : PendingLoad κ)
    (entries : List (κ × ν)) : Written κ ν :=
  writeLoaded p now load.signature.includes load.seq entries
    ((c.finished load).removeAll (c.commitDrops load entries) load.seq)

theorem ledger_commit_error (c : Cache κ ν) (name : String) (p : Policy κ ν) (now : Instant)
    (load : PendingLoad κ) (cause : Cause) :
    (c.commit name p now load (.error cause)).cache.ledger
      = (markFailures (.load name load.signature.key.shown cause) load.signature load.seq
          (c.finished load).ledger).settle := rfl

theorem commit_ok (c : Cache κ ν) (name : String) (p : Policy κ ν) (now : Instant)
    (load : PendingLoad κ) (entries : List (κ × ν)) :
    c.commit name p now load (.ok entries)
      = if (c.commitWrites p now load entries).complete then
          { cache := ((c.commitWrites p now load entries).cache.withLedger
              (markRequested now load.signature load.seq)).settle
            events := (if (c.commitDrops load entries).isEmpty then []
              else [.deleted (c.commitDrops load entries)])
                ++ [.loaded load.signature.key (c.commitWrites p now load entries).keys]
            result := .success }
        else { cache := (c.commitWrites p now load entries).cache, result := .brokenOff } := rfl

theorem data_commit_ok (c : Cache κ ν) (name : String) (p : Policy κ ν) (now : Instant)
    (load : PendingLoad κ) (entries : List (κ × ν)) :
    (c.commit name p now load (.ok entries)).cache.data
      = (c.commitWrites p now load entries).cache.data := by
  rw [commit_ok]
  split <;> rfl

/-- A commit writes its entries; it marks what was requested and settles unless it breaks off. -/
theorem ledger_commit_ok (c : Cache κ ν) (name : String) (p : Policy κ ν) (now : Instant)
    (load : PendingLoad κ) (entries : List (κ × ν)) :
    ((c.commitWrites p now load entries).complete = false
        ∧ (c.commit name p now load (.ok entries)).cache.ledger
          = (c.commitWrites p now load entries).cache.ledger)
      ∨ ((c.commitWrites p now load entries).complete = true
        ∧ (c.commit name p now load (.ok entries)).cache.ledger
          = (markAnswered load.signature.key.requested load.signature.includes now load.seq
              (c.commitWrites p now load entries).cache.ledger).settle) := by
  rw [commit_ok, ← markRequested_eq]
  cases (c.commitWrites p now load entries).complete with
  | false => exact Or.inl ⟨rfl, rfl⟩
  | true => exact Or.inr ⟨rfl, rfl⟩

theorem notes_commitWrites (c : Cache κ ν) (p : Policy κ ν) (now : Instant) (load : PendingLoad κ)
    (entries : List (κ × ν)) :
    (c.finished load).ledger.Notes (c.commitWrites p now load entries).cache.ledger
      (fun k => k ∈ c.commitDrops load entries ∨ k ∈ (c.commitWrites p now load entries).keys)
      (fun t => t ∈ (c.commitDrops load entries).map Target.key
        ∨ t ∈ (c.commitWrites p now load entries).keys.map Target.key) load.seq :=
  Ledger.Notes.trans (stamps_removeAll (c.commitDrops load entries) load.seq (c.finished load))
    (stamps_writeLoaded p now load.signature.includes load.seq entries _)

/-- What the commit removes and writes bears the number of the load, and invalidates nothing for it. -/
theorem isInvalidated_commitWrites (c : Cache κ ν) (p : Policy κ ν) (now : Instant)
    (load : PendingLoad κ) (entries : List (κ × ν)) (t : Target κ) :
    (c.commitWrites p now load entries).cache.ledger.isInvalidated t load.seq
      = c.ledger.isInvalidated t load.seq := by
  rw [(notes_commitWrites c p now load entries).isInvalidated_of_le (Nat.le_refl _)]
  exact Ledger.isInvalidated_finishLoad c.ledger _ _ _ t load.seq

theorem turns_commit_ok (c : Cache κ ν) (name : String) (p : Policy κ ν) (now : Instant)
    (load : PendingLoad κ) (entries : List (κ × ν)) :
    (c.finished load).ledger.Turns (c.commit name p now load (.ok entries)).cache.ledger
      (fun k => k ∈ c.commitDrops load entries ∨ k ∈ (c.commitWrites p now load entries).keys)
      (fun t => t ∈ (c.commitDrops load entries).map Target.key
        ∨ t ∈ (c.commitWrites p now load entries).keys.map Target.key) load.seq := by
  have hnotes := notes_commitWrites c p now load entries
  rcases ledger_commit_ok c name p now load entries with ⟨_, hl⟩ | ⟨_, hl⟩
  · exact ⟨_, hnotes, Or.inl hl⟩
  · exact ⟨_, hnotes.then_sameBooks (sameBooks_markAnswered _ _ now load.seq _), Or.inr hl⟩

theorem turns_commit_error (c : Cache κ ν) (name : String) (p : Policy κ ν) (now : Instant)
    (load : PendingLoad κ) (cause : Cause) :
    (c.finished load).ledger.Turns (c.commit name p now load (.error cause)).cache.ledger
      (fun _ => False) (fun _ => False) load.seq :=
  ⟨_, Ledger.Notes.of_sameBooks (sameBooks_markFailures _ load.signature load.seq _) load.seq,
    Or.inr (ledger_commit_error c name p now load cause)⟩

theorem turns_abort (c : Cache κ ν) (name : String) (load : PendingLoad κ) :
    (c.finished load).ledger.Turns (c.abort name load).cache.ledger
      (fun _ => False) (fun _ => False) load.seq :=
  (Ledger.Notes.of_sameBooks (Ledger.SameBooks.refl _) load.seq).turns_settle

/-- The targets that a load answers for with some entries: what it writes and, unless it breaks off,
what it was asked for. -/
def answers (c : Cache κ ν) (p : Policy κ ν) (now : Instant) (load : PendingLoad κ)
    (entries : List (κ × ν)) : List (Target κ) :=
  (c.commitWrites p now load entries).keys.map Target.key
    ++ if (c.commitWrites p now load entries).complete then load.signature.key.requested else []

/-- A commit makes fresh only what it answers for, and of that nothing that was invalidated since the
load started. -/
theorem fresh_of_commit_ok {c : Cache κ ν} {name : String} {p : Policy κ ν} {now : Instant}
    {load : PendingLoad κ} {entries : List (κ × ν)} {t : Target κ}
    (h : (c.commit name p now load (.ok entries)).cache.ledger.Fresh t) :
    (t ∈ c.answers p now load entries ∧ c.ledger.isInvalidated t load.seq = false)
      ∨ c.ledger.Fresh t := by
  -- the end of the load and what it removes and writes leave it with the same answers
  have hfin : ∀ u, (c.finished load).ledger.isInvalidated u load.seq
      = c.ledger.isInvalidated u load.seq :=
    fun u => Ledger.isInvalidated_finishLoad c.ledger _ _ _ u load.seq
  have hdrop := stamps_removeAll (c.commitDrops load entries) load.seq (c.finished load)
  have hwritten : (c.commitWrites p now load entries).cache.ledger.Fresh t →
      (t ∈ (c.commitWrites p now load entries).keys.map Target.key
        ∧ c.ledger.isInvalidated t load.seq = false) ∨ c.ledger.Fresh t := by
    intro hf
    rcases fresh_of_writeLoaded hf with ⟨hmem, hi⟩ | hf
    · rw [hdrop.isInvalidated_of_le (Nat.le_refl _), hfin] at hi
      exact Or.inl ⟨hmem, hi⟩
    · exact Or.inr ((Ledger.fresh_finishLoad c.ledger _ _ _ t).1 (fresh_of_removeAll hf))
  unfold answers
  rcases ledger_commit_ok c name p now load entries with ⟨hcomplete, hl⟩ | ⟨hcomplete, hl⟩
  · rw [hl] at h
    rcases hwritten h with ⟨hmem, hi⟩ | hf
    · exact Or.inl ⟨List.mem_append_left _ hmem, hi⟩
    · exact Or.inr hf
  · rw [hl, Ledger.fresh_settle] at h
    rcases fresh_of_markAnswered h with ⟨hmem, hi⟩ | hf
    · rw [isInvalidated_commitWrites] at hi
      refine Or.inl ⟨List.mem_append_right _ ?_, hi⟩
      rw [if_pos hcomplete]
      exact hmem
    · rcases hwritten hf with ⟨hmem, hi⟩ | hf
      · exact Or.inl ⟨List.mem_append_left _ hmem, hi⟩
      · exact Or.inr hf

theorem fresh_of_commit_error {c : Cache κ ν} {name : String} {p : Policy κ ν} {now : Instant}
    {load : PendingLoad κ} {cause : Cause} {t : Target κ}
    (h : (c.commit name p now load (.error cause)).cache.ledger.Fresh t) : c.ledger.Fresh t := by
  rw [ledger_commit_error, Ledger.fresh_settle, fresh_markFailures] at h
  exact (Ledger.fresh_finishLoad c.ledger _ _ _ t).1 h

theorem fresh_of_abort {c : Cache κ ν} {name : String} {load : PendingLoad κ} {t : Target κ}
    (h : (c.abort name load).cache.ledger.Fresh t) : c.ledger.Fresh t :=
  (Ledger.fresh_finishLoad c.ledger _ _ _ t).1 ((Ledger.fresh_settle _ t).1 h)

/-! ## What a commit may not touch -/

theorem isSuperseded_finished (c : Cache κ ν) (load : PendingLoad κ) (k : κ) (n : Nat) :
    (c.finished load).ledger.isSuperseded k n = c.ledger.isSuperseded k n :=
  Ledger.isSuperseded_finishLoad c.ledger _ _ _ k n

theorem not_mem_commitDrops {c : Cache κ ν} {load : PendingLoad κ} {k : κ}
    (h : c.ledger.isSuperseded k load.seq = true) (entries : List (κ × ν)) :
    k ∉ c.commitDrops load entries := by
  intro hmem
  unfold commitDrops at hmem
  split at hmem
  · have := not_isSuperseded_of_mem_stale hmem
    rw [isSuperseded_finished, h] at this
    exact Bool.noConfusion this
  · exact List.not_mem_nil hmem

theorem not_mem_commitWrites {c : Cache κ ν} {load : PendingLoad κ} {k : κ}
    (h : c.ledger.isSuperseded k load.seq = true) (p : Policy κ ν) (now : Instant)
    (entries : List (κ × ν)) : k ∉ (c.commitWrites p now load entries).keys := by
  intro hmem
  have := not_isSuperseded_of_mem_writeLoaded hmem
  rw [(stamps_removeAll (c.commitDrops load entries) load.seq (c.finished load)).isSuperseded_of_le
    (Nat.le_refl _), isSuperseded_finished, h] at this
  exact Bool.noConfusion this

/-- The commit of a load leaves the value of a key that was written since the load started. -/
theorem data_commit_of_superseded {c : Cache κ ν} {load : PendingLoad κ} {k : κ}
    (h : c.ledger.isSuperseded k load.seq = true) (name : String) (p : Policy κ ν) (now : Instant)
    (answer : Except Cause (List (κ × ν))) :
    (c.commit name p now load answer).cache.data.get? k = c.data.get? k := by
  cases answer with
  | error cause => rfl
  | ok entries =>
      rw [data_commit_ok]
      exact (data_writeLoaded (not_mem_commitWrites h p now entries)).trans
        (data_removeAll (not_mem_commitDrops h entries) load.seq (c.finished load))

/-- And its record, apart from the loads of it that run. -/
theorem sameRecord_commit_of_superseded {c : Cache κ ν} {load : PendingLoad κ} {k : κ}
    (h : c.ledger.isSuperseded k load.seq = true) (name : String) (p : Policy κ ν) (now : Instant)
    (answer : Except Cause (List (κ × ν))) :
    c.ledger.SameRecord (c.commit name p now load answer).cache.ledger (.key k) := by
  have hfin : c.ledger.SameRecord (c.finished load).ledger (.key k) :=
    Ledger.sameRecord_finishLoad c.ledger _ _ _ (.key k)
  refine hfin.trans (Ledger.SameRecord.of_eq ?_)
  have hsup : (c.finished load).ledger.isSuperseded k load.seq = true := by
    rw [isSuperseded_finished]; exact h
  cases answer with
  | error cause =>
      rw [ledger_commit_error, Ledger.meta?_settle, meta?_markFailures hsup]
  | ok entries =>
      have hwrites : (c.commitWrites p now load entries).cache.ledger.meta? (.key k)
          = (c.finished load).ledger.meta? (.key k) :=
        (meta?_writeLoaded (mt Target.key_mem_map.1 (not_mem_commitWrites h p now entries))).trans
          (meta?_removeAll (mt Target.key_mem_map.1 (not_mem_commitDrops h entries)) load.seq _)
      rcases ledger_commit_ok c name p now load entries with ⟨_, hl⟩ | ⟨_, hl⟩
      · rw [hl, hwrites]
      · -- the key may have been asked for, but counts as invalidated and is not marked
        have hinv : (c.commitWrites p now load entries).cache.ledger.isInvalidated (.key k) load.seq
            = true := by
          rw [isInvalidated_commitWrites]
          exact Ledger.isInvalidated_of_isSuperseded h
        rw [hl, Ledger.meta?_settle, meta?_markAnswered hinv, hwrites]

end Cache

end Larder
