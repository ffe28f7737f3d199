import Larder.Proofs.Books

/-!
# What a step answers and publishes

`Busy.step` says where a step leads. Whoever asks for the step gets an answer as well, and the
subscribers get events. `Busy.change` is the operation behind a step with all three, under one type
of answers, and `step_eq` says that a step is nothing but its change: the cache is the one of the
change, and its answer tells which loads have started and ended.
-/

namespace Larder

/-- The change with its answer sent through `f`. -/
def Change.map {κ ν α β : Type} [EntryKey κ] (f : α → β) (x : Change κ ν α) : Change κ ν β :=
  { cache := x.cache, events := x.events, result := f x.result }

/-- What a step answers. -/
inductive Outcome (κ : Type) where
  /-- Nothing. -/
  | done
  /-- Whether all entries were written; if not, the step broke off. -/
  | wrote (complete : Bool)
  /-- Whether there was a value to change. -/
  | updated (found : Bool)
  /-- The keys that were removed. -/
  | removed (keys : List κ)
  /-- What came of the wish to load. -/
  | started (s : Started κ)
  /-- What came of the commit of a load. -/
  | committed (load : PendingLoad κ) (c : Committed)
  /-- The failure that those get who wait for a load that ended without a commit. -/
  | aborted (load : PendingLoad κ) (f : Failure)

namespace Cache

variable {κ ν : Type} [EntryKey κ]

/-- Writing is carried through, or breaks off and says nothing. -/
theorem setMany_cases (c : Cache κ ν) (p : Policy κ ν) (now : Instant) (entries : List (κ × ν)) :
    let w := writeLocally p now (c.ledger.seq + 1) entries c.draw
    (w.2 = false ∧ c.setMany p now entries = { cache := w.1, result := false })
      ∨ (w.2 = true ∧ c.setMany p now entries
        = { cache := w.1.settle, events := [.updated (entries.map Prod.fst)], result := true }) := by
  rw [setMany_eq]
  rcases writeLocally p now (c.ledger.seq + 1) entries c.draw with ⟨c', _ | _⟩
  · exact Or.inl ⟨rfl, rfl⟩
  · exact Or.inr ⟨rfl, rfl⟩

/-- And so is replacing. -/
theorem replace_cases (c : Cache κ ν) (p : Policy κ ν) (now : Instant) (entries : List (κ × ν)) :
    let w := writeLocally p now (c.ledger.seq + 1) entries (c.replaceBase entries)
    (w.2 = false ∧ c.replace p now entries = { cache := w.1, result := false })
      ∨ (w.2 = true ∧ c.replace p now entries
        = { cache := (w.1.withLedger fun l => l.markWritten (.named Alias.all) now).settle
            events := (if (c.replaceDrops entries).isEmpty then []
              else [.deleted (c.replaceDrops entries)]) ++ [.updated (entries.map Prod.fst)]
            result := true }) := by
  rw [replace_eq]
  rcases writeLocally p now (c.ledger.seq + 1) entries (c.replaceBase entries) with ⟨c', _ | _⟩
  · exact Or.inl ⟨rfl, rfl⟩
  · exact Or.inr ⟨rfl, rfl⟩

end Cache

namespace Outcome

variable {κ : Type}

/-- Whether the step broke off where a merge broke down. -/
def isBrokenOff : Outcome κ → Bool
  | .wrote false | .committed _ .brokenOff => true
  | _ => false

/-- The loads under way after the step. -/
def pending (pending : List (PendingLoad κ)) : Outcome κ → List (PendingLoad κ)
  | .started (.begun load) => pending ++ [load]
  | .committed load _ | .aborted load _ => pending.filter fun l => ¬ l.seq = load.seq
  | _ => pending

/-- The loads to clean up after, after the step. -/
def broken (broken : List (PendingLoad κ)) : Outcome κ → List (PendingLoad κ)
  | .committed load .brokenOff => broken ++ [load]
  | .aborted load _ => broken.filter fun l => ¬ l.seq = load.seq
  | _ => broken

end Outcome

namespace Busy

variable {κ ν : Type} [EntryKey κ]

/-- The operation behind a step, with its events and its answer. -/
def change (b : Busy κ ν) : Op κ ν → Change κ ν (Outcome κ)
  | .setMany now entries => (b.cache.setMany b.policy now entries).map .wrote
  | .replace now entries => (b.cache.replace b.policy now entries).map .wrote
  | .update k f => (b.cache.update k f).map .updated
  | .delete key => (b.cache.delete key).map .removed
  | .clear => b.cache.clear.map fun _ => .done
  | .markOutdated key => (b.cache.markOutdated key).map fun _ => .done
  | .markAllOutdated => b.cache.markAllOutdated.map fun _ => .done
  | .purge tracked cutoff => (b.cache.purge tracked cutoff).map .removed
  | .register name r => { cache := b.cache.register name r, result := .done }
  | .start key inc force => (b.cache.start b.name b.policy key inc force).map .started
  | .commit seq now answer =>
    match b.pending? seq with
    | none => { cache := b.cache, result := .done }
    | some load => (b.cache.commit b.name b.policy now load answer).map (.committed load)
  | .abort seq =>
    match b.loose? seq with
    | none => { cache := b.cache, result := .done }
    | some load => (b.cache.abort b.name load).map (.aborted load)

/-- The cache at work after a change. -/
def after (b : Busy κ ν) (x : Change κ ν (Outcome κ)) : Busy κ ν :=
  { b with
    cache := x.cache
    pending := x.result.pending b.pending
    broken := x.result.broken b.broken }

/-- The events that a step publishes. -/
def emits (b : Busy κ ν) (op : Op κ ν) : List (Event κ) := (b.change op).events

/-- Whether a step breaks off where a merge breaks down. -/
def breaksOff (b : Busy κ ν) (op : Op κ ν) : Bool := (b.change op).result.isBrokenOff

theorem change_commit_of_none {b : Busy κ ν} {seq : Nat} (h : b.pending? seq = none) (now : Instant)
    (answer : Except Cause (List (κ × ν))) :
    b.change (.commit seq now answer) = { cache := b.cache, result := .done } := by
  simp only [change, h]

theorem change_commit_of_some {b : Busy κ ν} {seq : Nat} {load : PendingLoad κ}
    (h : b.pending? seq = some load) (now : Instant) (answer : Except Cause (List (κ × ν))) :
    b.change (.commit seq now answer)
      = (b.cache.commit b.name b.policy now load answer).map (.committed load) := by
  simp only [change, h]

theorem change_abort_of_none {b : Busy κ ν} {seq : Nat} (h : b.loose? seq = none) :
    b.change (.abort seq) = { cache := b.cache, result := .done } := by
  simp only [change, h]

theorem change_abort_of_some {b : Busy κ ν} {seq : Nat} {load : PendingLoad κ}
    (h : b.loose? seq = some load) :
    b.change (.abort seq) = (b.cache.abort b.name load).map (.aborted load) := by
  simp only [change, h]

/-- **A step is its change.** -/
theorem step_eq (b : Busy κ ν) (op : Op κ ν) : b.step op = b.after (b.change op) := by
  cases op with
  | start key inc force =>
      rw [step_start]
      show _ = b.after ((b.cache.start b.name b.policy key inc force).map .started)
      unfold after Change.map
      cases (b.cache.start b.name b.policy key inc force).result <;> rfl
  | commit seq now answer =>
      cases hp : b.pending? seq with
      | none => rw [step_commit_of_none hp, change_commit_of_none hp]; rfl
      | some load =>
          rw [step_commit_of_some hp, change_commit_of_some hp, ← (pending?_spec hp).2]
          unfold after Change.map
          cases (b.cache.commit b.name b.policy now load answer).result <;> rfl
  | abort seq =>
      cases hl : b.loose? seq with
      | none => rw [step_abort_of_none hl, change_abort_of_none hl]; rfl
      | some load =>
          rw [step_abort_of_some hl, change_abort_of_some hl, ← (loose?_spec hl).2]
          rfl
  | _ => rfl

theorem cache_step (b : Busy κ ν) (op : Op κ ν) : (b.step op).cache = (b.change op).cache := by
  rw [step_eq]
  rfl

theorem Along.holds_at {P : Busy κ ν → Op κ ν → Prop} {b : Busy κ ν} {before after : List (Op κ ν)}
    {op : Op κ ν} (h : Along P b (before ++ op :: after)) : P (b.run before) op := by
  induction before generalizing b with
  | nil => exact h.1
  | cons o before ih => exact ih h.2

/-- The events that a run publishes, in order. -/
def story : Busy κ ν → List (Op κ ν) → List (Event κ)
  | _, [] => []
  | b, op :: ops => b.emits op ++ story (b.step op) ops

theorem story_concat (b : Busy κ ν) (ops : List (Op κ ν)) (op : Op κ ν) :
    b.story (ops ++ [op]) = b.story ops ++ (b.run ops).emits op := by
  induction ops generalizing b with
  | nil => exact List.append_nil _
  | cons o ops ih =>
      rw [List.cons_append, story, ih, story, List.append_assoc]
      rfl

end Busy

end Larder
