import Larder.Proofs.Changes

/-!
# Runs of a cache

A cache at work is the cache together with the loads that are under way. It goes from state to state
by single steps: local changes, starts of loads, commits of loads that were started, in any order.
`Busy.step` is one of them and `Busy.run` any number.

What a step does to the books comes in four kinds only, and `step_case` says so once: nothing, a
change under a new number, the start of a load under a new number, or the end of a load under the
number it has. Everything about runs is derived from these four.
-/

namespace Larder

/-- What can happen to a cache in one step. -/
inductive Op (κ ν : Type) [EntryKey κ] where
  /-- Write entries locally. -/
  | setMany (now : Instant) (entries : List (κ × ν))
  /-- Make the cache hold exactly some entries. -/
  | replace (now : Instant) (entries : List (κ × ν))
  /-- Change a cached value in place. -/
  | update (k : κ) (f : ν → ν)
  /-- Remove what a key stands for. -/
  | delete (key : Key κ)
  /-- Remove everything. -/
  | clear
  /-- Mark outdated what a key stands for. -/
  | markOutdated (key : Key κ)
  /-- Mark everything outdated. -/
  | markAllOutdated
  /-- Evict what nobody uses and what was loaded at or before the cutoff. -/
  | purge (tracked : List (Key κ)) (cutoff : Instant)
  /-- Register what an alias stands for. -/
  | register (name : String) (r : Resolver κ ν)
  /-- Ask for a load of a key, or force one. -/
  | start (key : Key κ) (inc : Includes) (force : Bool)
  /-- Commit the load with a number. -/
  | commit (seq : Nat) (now : Instant) (answer : Except Cause (List (κ × ν)))
  /-- Clean up after the load with a number, which ended without a commit. -/
  | abort (seq : Nat)

/-- Whether the step removes everything. -/
@[simp]
def Op.isClear {κ ν : Type} [EntryKey κ] : Op κ ν → Bool
  | .clear => true
  | _ => false

/-- A cache at work. -/
structure Busy (κ ν : Type) [EntryKey κ] where
  /-- The name in messages. -/
  name : String
  /-- How entries are merged and which keys are accepted. -/
  policy : Policy κ ν
  /-- The entries and their ledger. -/
  cache : Cache κ ν := {}
  /-- The loads that have started and not ended, oldest first. -/
  pending : List (PendingLoad κ) := []
  /-- The loads whose commit broke off and that nobody has cleaned up after. -/
  broken : List (PendingLoad κ) := []

namespace Busy

variable {κ ν : Type} [EntryKey κ]

/-- The ledger of the cache. -/
abbrev ledger (b : Busy κ ν) : Ledger κ := b.cache.ledger

/-- The load under way with a number. -/
def pending? (b : Busy κ ν) (seq : Nat) : Option (PendingLoad κ) :=
  b.pending.find? fun load => load.seq = seq

/-- The load with a number that may have to be cleaned up after. -/
def loose? (b : Busy κ ν) (seq : Nat) : Option (PendingLoad κ) :=
  (b.pending ++ b.broken).find? fun load => load.seq = seq

/-- One step. The commit of a load that is not under way is none. -/
def step (b : Busy κ ν) : Op κ ν → Busy κ ν
  | .setMany now entries => { b with cache := (b.cache.setMany b.policy now entries).cache }
  | .replace now entries => { b with cache := (b.cache.replace b.policy now entries).cache }
  | .update k f => { b with cache := (b.cache.update k f).cache }
  | .delete key => { b with cache := (b.cache.delete key).cache }
  | .clear => { b with cache := b.cache.clear.cache }
  | .markOutdated key => { b with cache := (b.cache.markOutdated key).cache }
  | .markAllOutdated => { b with cache := b.cache.markAllOutdated.cache }
  | .purge tracked cutoff => { b with cache := (b.cache.purge tracked cutoff).cache }
  | .register name r => { b with cache := b.cache.register name r }
  | .start key inc force =>
    let change := b.cache.start b.name b.policy key inc force
    { b with
      cache := change.cache
      pending := match change.result with
        | .begun load => b.pending ++ [load]
        | _ => b.pending }
  | .commit seq now answer =>
    match b.pending? seq with
    | none => b
    | some load =>
      let change := b.cache.commit b.name b.policy now load answer
      { b with
        cache := change.cache
        pending := b.pending.filter fun l => ¬ l.seq = seq
        -- the ledger knows of the end already, but the cleanup is still to come
        broken := match change.result with
          | .brokenOff => b.broken ++ [load]
          | _ => b.broken }
  | .abort seq =>
    match b.loose? seq with
    | none => b
    | some load =>
      { b with
        cache := (b.cache.abort b.name load).cache
        pending := b.pending.filter fun l => ¬ l.seq = seq
        broken := b.broken.filter fun l => ¬ l.seq = seq }

/-- Some steps, one after the other. -/
def run (b : Busy κ ν) (ops : List (Op κ ν)) : Busy κ ν := ops.foldl step b

@[simp]
theorem run_nil (b : Busy κ ν) : b.run [] = b := rfl

@[simp]
theorem run_cons (b : Busy κ ν) (op : Op κ ν) (ops : List (Op κ ν)) :
    b.run (op :: ops) = (b.step op).run ops := rfl

theorem run_append (b : Busy κ ν) (ops ops' : List (Op κ ν)) :
    b.run (ops ++ ops') = (b.run ops).run ops' :=
  List.foldl_append

/-- A new cache: empty, with the alias for all registered and no other. -/
def new (name : String) (policy : Policy κ ν) : Busy κ ν := { name := name, policy := policy }

/-- What a new cache can come to, whatever its name and policy. -/
inductive Reachable : Busy κ ν → Prop where
  /-- A new cache. -/
  | init (name : String) (policy : Policy κ ν) : Reachable (new name policy)
  /-- One more step. -/
  | tail {b : Busy κ ν} (hb : Reachable b) (op : Op κ ν) : Reachable (b.step op)

theorem Reachable.run {b : Busy κ ν} (hb : Reachable b) (ops : List (Op κ ν)) :
    Reachable (b.run ops) := by
  induction ops generalizing b with
  | nil => exact hb
  | cons op ops ih => exact ih (hb.tail op)

/-- Every step of a run satisfies `P`, which is told the state before it. -/
def Along (P : Busy κ ν → Op κ ν → Prop) : Busy κ ν → List (Op κ ν) → Prop
  | _, [] => True
  | b, op :: ops => P b op ∧ Along P (b.step op) ops

/-- Some step of a run satisfies `P`, which is told the state before it. -/
def Once (P : Busy κ ν → Op κ ν → Prop) : Busy κ ν → List (Op κ ν) → Prop
  | _, [] => False
  | b, op :: ops => P b op ∨ Once P (b.step op) ops

/-! ## What a step touches -/

/-- The step writes or removes the key, as far as the load numbered `n` is concerned: locally, or by
the commit of a load that started after it. -/
def Touches (b : Busy κ ν) (k : κ) (n : Nat) : Op κ ν → Prop
  | .setMany _ entries => k ∈ Cache.writtenKeys b.policy entries b.cache.data
  | .replace _ entries =>
    k ∈ b.cache.replaceDrops entries ∨ k ∈ b.cache.replaceWrites b.policy entries
  | .update j _ => k = j ∧ b.cache.data.contains k = true
  | .delete key => k ∈ b.cache.resolve key
  | .clear => True
  | .purge tracked cutoff => k ∈ b.cache.expired tracked cutoff
  | .commit seq now (.ok entries) =>
    ∃ load, b.pending? seq = some load ∧ n < load.seq
      ∧ (k ∈ b.cache.commitDrops load entries
        ∨ k ∈ (b.cache.commitWrites b.policy now load entries).keys)
  | .commit _ _ (.error _) => False
  | .markOutdated _ | .markAllOutdated | .register _ _ | .start _ _ _ | .abort _ => False

/-- The step invalidates the target: it names the target, or a key that stands for it, or everything.
A purge that evicts something invalidates the alias for all. -/
@[simp]
def Invalidates (b : Busy κ ν) (t : Target κ) : Op κ ν → Prop
  | .markOutdated key => t ∈ b.cache.targets key
  | .markAllOutdated => True
  | .purge tracked cutoff => t = .named Alias.all ∧ b.cache.expired tracked cutoff ≠ []
  | _ => False

/-- The step overtakes the load numbered `n` at the target: it invalidates the target, or touches the
key that the target is. Clearing overtakes the load at aliases too. -/
def Overtakes (b : Busy κ ν) (t : Target κ) (n : Nat) (op : Op κ ν) : Prop :=
  b.Invalidates t op ∨
    match t with
    | .key k => b.Touches k n op
    | .named _ => op.isClear = true

/-- The step is a commit that succeeds. -/
def succeeds (b : Busy κ ν) : Op κ ν → Bool
  | .commit seq now answer =>
    match b.pending? seq with
    | none => false
    | some load =>
      match (b.cache.commit b.name b.policy now load answer).result with
      | .success => true
      | _ => false
  | _ => false

/-! ## The four kinds of steps -/

/-- What one step does to the books and to the loads under way. -/
inductive StepCase (b : Busy κ ν) (op : Op κ ν) (b' : Busy κ ν) : Prop where
  /-- Nothing happens to them. -/
  | idle (ledger : b'.ledger = b.ledger) (pending : b'.pending = b.pending)
      (broken : b'.broken = b.broken) (touches : ∀ k n, ¬ b.Touches k n op)
      (overtakes : ∀ t n, ¬ b.Overtakes t n op)
  /-- Something changes under a new number. -/
  | change (W : κ → Prop) (T : Target κ → Prop)
      (turns : b.ledger.draw.Turns b'.ledger W T (b.ledger.seq + 1))
      (pending : b'.pending = b.pending) (broken : b'.broken = b.broken)
      (touches : ∀ k n, b.Touches k n op ↔ W k) (overtakes : ∀ t n, b.Overtakes t n op ↔ T t)
  /-- A load starts under a new number. -/
  | starts (load : PendingLoad κ) (seq : load.seq = b.ledger.seq + 1)
      (joinable : b.ledger.joinable? load.signature = none)
      (ledger : b'.ledger = b.ledger.draw.startLoad load.signature ⟨load.seq, load.targets⟩)
      (pending : b'.pending = b.pending ++ [load]) (broken : b'.broken = b.broken)
      (touches : ∀ k n, ¬ b.Touches k n op) (overtakes : ∀ t n, ¬ b.Overtakes t n op)
  /-- A load ends, and what it does is done under its own number. -/
  | ends (load : PendingLoad κ) (loose : load ∈ b.pending ++ b.broken)
      (W : κ → Prop) (T : Target κ → Prop)
      (turns : (b.ledger.finishLoad load.signature load.seq load.targets).Turns b'.ledger W T load.seq)
      (pending : b'.pending = b.pending.filter fun l => ¬ l.seq = load.seq)
      (broken : ∀ l ∈ b'.broken, l ∈ b.broken ∨ l = load)
      (touches : ∀ k n, b.Touches k n op ↔ W k ∧ n < load.seq)
      (overtakes : ∀ t n, b.Overtakes t n op ↔ T t ∧ n < load.seq)

@[simp]
theorem overtakes_key (b : Busy κ ν) (k : κ) (n : Nat) (op : Op κ ν) :
    b.Overtakes (.key k) n op ↔ b.Invalidates (.key k) op ∨ b.Touches k n op := Iff.rfl

@[simp]
theorem overtakes_named (b : Busy κ ν) (a : Alias) (n : Nat) (op : Op κ ν) :
    b.Overtakes (.named a) n op ↔ b.Invalidates (.named a) op ∨ op.isClear = true := Iff.rfl

theorem pending?_spec {b : Busy κ ν} {seq : Nat} {load : PendingLoad κ}
    (h : b.pending? seq = some load) : load ∈ b.pending ∧ load.seq = seq := by
  unfold pending? at h
  exact ⟨List.mem_of_find?_eq_some h, by simpa using List.find?_some h⟩

theorem loose?_spec {b : Busy κ ν} {seq : Nat} {load : PendingLoad κ}
    (h : b.loose? seq = some load) : load ∈ b.pending ++ b.broken ∧ load.seq = seq := by
  unfold loose? at h
  exact ⟨List.mem_of_find?_eq_some h, by simpa using List.find?_some h⟩

theorem step_start (b : Busy κ ν) (key : Key κ) (inc : Includes) (force : Bool) :
    b.step (.start key inc force) =
      { b with
        cache := (b.cache.start b.name b.policy key inc force).cache
        pending := match (b.cache.start b.name b.policy key inc force).result with
          | .begun load => b.pending ++ [load]
          | _ => b.pending } := rfl

theorem data_start (b : Busy κ ν) (key : Key κ) (inc : Includes) (force : Bool) :
    (b.step (.start key inc force)).cache.data = b.cache.data := by
  rw [step_start]
  rcases b.cache.start_cases b.name b.policy key inc force with ⟨hcache, _⟩ | ⟨_, hstart⟩
  · rw [hcache]
  · rw [hstart]

theorem step_commit_of_none {b : Busy κ ν} {seq : Nat} (h : b.pending? seq = none) (now : Instant)
    (answer : Except Cause (List (κ × ν))) : b.step (.commit seq now answer) = b := by
  simp only [step, h]

theorem step_commit_of_some {b : Busy κ ν} {seq : Nat} {load : PendingLoad κ}
    (h : b.pending? seq = some load) (now : Instant) (answer : Except Cause (List (κ × ν))) :
    b.step (.commit seq now answer) =
      { b with
        cache := (b.cache.commit b.name b.policy now load answer).cache
        pending := b.pending.filter fun l => ¬ l.seq = seq
        broken := match (b.cache.commit b.name b.policy now load answer).result with
          | .brokenOff => b.broken ++ [load]
          | _ => b.broken } := by
  simp only [step, h]

theorem step_abort_of_none {b : Busy κ ν} {seq : Nat} (h : b.loose? seq = none) :
    b.step (.abort seq) = b := by
  simp only [step, h]

theorem step_abort_of_some {b : Busy κ ν} {seq : Nat} {load : PendingLoad κ}
    (h : b.loose? seq = some load) :
    b.step (.abort seq) =
      { b with
        cache := (b.cache.abort b.name load).cache
        pending := b.pending.filter fun l => ¬ l.seq = seq
        broken := b.broken.filter fun l => ¬ l.seq = seq } := by
  simp only [step, h]

/-- The policy of a cache never changes. -/
theorem policy_step (b : Busy κ ν) (op : Op κ ν) : (b.step op).policy = b.policy := by
  cases op with
  | commit seq now answer =>
      cases hp : b.pending? seq with
      | none => rw [step_commit_of_none hp]
      | some load => rw [step_commit_of_some hp]
  | abort seq =>
      cases hl : b.loose? seq with
      | none => rw [step_abort_of_none hl]
      | some load => rw [step_abort_of_some hl]
  | _ => rfl

theorem policy_run (b : Busy κ ν) (ops : List (Op κ ν)) : (b.run ops).policy = b.policy := by
  induction ops generalizing b with
  | nil => rfl
  | cons op ops ih => exact (ih (b.step op)).trans (b.policy_step op)

theorem start_case (b : Busy κ ν) (key : Key κ) (inc : Includes) (force : Bool) :
    StepCase b (.start key inc force) (b.step (.start key inc force)) := by
  have htouch : ∀ k n, ¬ b.Touches k n (.start key inc force) := fun _ _ h => h
  have hover : ∀ t n, ¬ b.Overtakes t n (.start key inc force) := by
    intro t n
    cases t <;> simp [Touches]
  rw [step_start]
  rcases b.cache.start_cases b.name b.policy key inc force with ⟨hcache, hresult⟩ | ⟨hjoin, hstart⟩
  · rw [hcache]
    refine .idle rfl ?_ rfl htouch hover
    dsimp only
    split
    · rename_i load heq
      exact absurd heq (hresult load)
    · rfl
  · rw [hstart]
    exact .starts (b.cache.nextLoad key inc) rfl hjoin rfl rfl rfl htouch hover

theorem commit_case (b : Busy κ ν) (seq : Nat) (now : Instant)
    (answer : Except Cause (List (κ × ν))) :
    StepCase b (.commit seq now answer) (b.step (.commit seq now answer)) := by
  cases hp : b.pending? seq with
  | none =>
      rw [step_commit_of_none hp]
      have htouch : ∀ k n, ¬ b.Touches k n (.commit seq now answer) := by
        intro k n
        cases answer <;> simp [Touches, hp]
      refine .idle rfl rfl rfl htouch fun t n => ?_
      cases t with
      | key k => simp [htouch]
      | named a => simp
  | some load =>
      rw [step_commit_of_some hp]
      obtain ⟨hmem, rfl⟩ := pending?_spec hp
      have hbroken : ∀ l ∈ (match (b.cache.commit b.name b.policy now load answer).result with
          | .brokenOff => b.broken ++ [load]
          | _ => b.broken), l ∈ b.broken ∨ l = load := by
        intro l hl
        split at hl
        · simpa using hl
        · exact Or.inl hl
      cases answer with
      | error cause =>
          refine .ends load (List.mem_append_left _ hmem) _ _
            (b.cache.turns_commit_error b.name b.policy now load cause) rfl hbroken ?_ ?_
          · intro k n
            simp [Touches]
          · intro t n
            cases t <;> simp [Touches]
      | ok entries =>
          refine .ends load (List.mem_append_left _ hmem) _ _
            (b.cache.turns_commit_ok b.name b.policy now load entries) rfl hbroken ?_ ?_
          · intro k n
            simp only [Touches, hp, Option.some.injEq, exists_eq_left']
            exact and_comm
          · intro t n
            cases t with
            | key k =>
                simp only [overtakes_key, Invalidates, Touches, hp, Option.some.injEq,
                  exists_eq_left', false_or, Target.key_mem_map]
                exact and_comm
            | named a => simp

theorem abort_case (b : Busy κ ν) (seq : Nat) : StepCase b (.abort seq) (b.step (.abort seq)) := by
  have htouch : ∀ k n, ¬ b.Touches k n (.abort seq) := fun _ _ h => h
  have hover : ∀ t n, ¬ b.Overtakes t n (.abort seq) := by
    intro t n
    cases t <;> simp [Touches]
  cases hl : b.loose? seq with
  | none =>
      rw [step_abort_of_none hl]
      exact .idle rfl rfl rfl htouch hover
  | some load =>
      rw [step_abort_of_some hl]
      obtain ⟨hmem, rfl⟩ := loose?_spec hl
      refine .ends load hmem _ _ (b.cache.turns_abort b.name load) rfl ?_ ?_ ?_
      · intro l h
        exact Or.inl (List.mem_filter.1 h).1
      · intro k n
        simp [htouch]
      · intro t n
        simp [hover]

/-- **Every step is of one of the four kinds.** -/
theorem step_case (b : Busy κ ν) (op : Op κ ν) : StepCase b op (b.step op) := by
  cases op with
  | setMany now entries =>
      refine .change _ _ (b.cache.turns_setMany b.policy now entries) rfl rfl (fun _ _ => Iff.rfl) ?_
      intro t n
      cases t <;> simp [Touches]
  | replace now entries =>
      refine .change _ _ (b.cache.turns_replace b.policy now entries) rfl rfl (fun _ _ => Iff.rfl) ?_
      intro t n
      cases t <;> simp [Touches]
  | update j f =>
      cases hj : b.cache.data.get? j with
      | none =>
          -- there is no value to change, and no number is drawn
          have htouch : ∀ k n, ¬ b.Touches k n (.update j f) := by
            rintro k n ⟨rfl, hc⟩
            rw [Shelf.contains, hj] at hc
            exact Bool.noConfusion hc
          refine .idle ?_ rfl rfl htouch fun t n => ?_
          · show (b.cache.update j f).cache.ledger = b.ledger
            rw [Cache.update_of_none hj]
          · cases t with
            | key k => simp [htouch]
            | named a => simp
      | some v =>
          have htouch : ∀ k n, b.Touches k n (.update j f) ↔ k ∈ [j] := by
            intro k n
            simp only [Touches, List.mem_singleton, and_iff_left_iff_imp]
            rintro rfl
            rw [Shelf.contains, hj]
            rfl
          refine .change _ _ (Cache.turns_update hj f) rfl rfl htouch fun t n => ?_
          cases t with
          | key k => simp [htouch]
          | named a => simp
  | delete key =>
      refine .change _ _ (b.cache.turns_delete key) rfl rfl (fun _ _ => Iff.rfl) ?_
      intro t n
      cases t <;> simp [Touches]
  | clear =>
      refine .change _ _ b.cache.turns_clear rfl rfl (fun _ _ => Iff.rfl) ?_
      intro t n
      cases t <;> simp [Touches]
  | markOutdated key =>
      refine .change _ _ (b.cache.turns_markOutdated key) rfl rfl (fun _ _ => Iff.rfl) ?_
      intro t n
      cases t <;> simp [Touches]
  | markAllOutdated =>
      refine .change _ _ b.cache.turns_markAllOutdated rfl rfl (fun _ _ => Iff.rfl) ?_
      intro t n
      cases t <;> simp [Touches]
  | purge tracked cutoff =>
      by_cases he : b.cache.expired tracked cutoff = []
      · -- nothing has expired, and no number is drawn
        refine .idle ?_ rfl rfl ?_ ?_
        · show (b.cache.purge tracked cutoff).cache.ledger = b.ledger
          rw [Cache.purge_of_nil he]
        · intro k n
          simp [Touches, he]
        · intro t n
          cases t <;> simp [Touches, he]
      · refine .change _ _ (Cache.turns_purge he) rfl rfl ?_ ?_
        · intro k n
          simp [Touches]
        · intro t n
          cases t <;> simp [Touches, he]
  | register name r =>
      refine .idle rfl rfl rfl (fun _ _ h => h) ?_
      intro t n
      cases t <;> simp [Touches]
  | start key inc force => exact start_case b key inc force
  | commit seq now answer => exact commit_case b seq now answer
  | abort seq => exact abort_case b seq

end Busy

end Larder
