import Larder.Proofs.Invalidation
import Larder.Proofs.Outcome
import Larder.World.Run
import Mathlib.Data.List.Induction

/-!
# What follows another resource does not stay stale

A single value can be kept in step with another resource. A task of its own reads the events of the
source; after each that changes data it marks the target outdated, and if somebody uses the target it
refreshes it and waits for that before it reads on. The source, the target and the task are three
machines with a channel in between that loses its oldest messages when it is full. `Synced.step` is one
move of any of them; the task moves in the smallest steps it has, so anything may happen between its
receiving, its marking, its looking for uses and its refreshing.

A change that was published is *due* until the target is marked for it: it waits in the channel, or
counts among the lost messages, or the task has noticed it. Being due ends with the marking and in no
other way. From the marking on, no load that was under way makes the target fresh; so what is fresh
after the last marking is due to something later.
-/

namespace Larder

/-! ## What waits in a channel -/

namespace Channel

variable {α : Type}

/-- The number of the oldest message that is kept. -/
def oldest (c : Channel α) : Nat := c.published - c.recent.length

/-- The messages kept that a reader has not seen. -/
def waiting (c : Channel α) (position : Nat) : List α := c.recent.drop (position - c.oldest)

/-- What a channel keeps has been published. -/
def Sound (c : Channel α) : Prop := c.recent.length ≤ c.published

/-- Publishing adds a message and drops one at most. -/
theorem publish_spec (c : Channel α) (a : α) :
    (c.publish a).published = c.published + 1
      ∧ ∃ dropped ≤ 1, (c.publish a).recent = (c.recent ++ [a]).drop dropped := by
  refine ⟨rfl, ?_⟩
  unfold publish
  dsimp only
  split
  · exact ⟨1, Nat.le_refl 1, rfl⟩
  · exact ⟨0, Nat.zero_le 1, rfl⟩

theorem sound_publish {c : Channel α} (h : c.Sound) (a : α) : (c.publish a).Sound := by
  obtain ⟨hpublished, dropped, _, hrecent⟩ := c.publish_spec a
  unfold Sound at h ⊢
  rw [hpublished, hrecent, List.length_drop, List.length_append, List.length_singleton]
  omega

theorem oldest_publish {c : Channel α} (h : c.Sound) (a : α) : c.oldest ≤ (c.publish a).oldest := by
  obtain ⟨hpublished, dropped, _, hrecent⟩ := c.publish_spec a
  unfold Sound at h
  unfold oldest
  rw [hpublished, hrecent, List.length_drop, List.length_append, List.length_singleton]
  omega

/-- A reader that has lost nothing has one more message waiting. -/
theorem waiting_publish {c : Channel α} (h : c.Sound) {position : Nat} (hp : position ≤ c.published)
    {a : α} (hkept : (c.publish a).oldest ≤ position) :
    (c.publish a).waiting position = c.waiting position ++ [a] := by
  obtain ⟨hpublished, dropped, hdropped, hrecent⟩ := c.publish_spec a
  unfold Sound at h
  unfold oldest at hkept
  unfold waiting oldest
  rw [hpublished, hrecent, List.length_drop, List.length_append, List.length_singleton] at hkept ⊢
  rw [List.drop_drop, ← List.drop_append_of_le_length (by omega)]
  congr 1
  omega

theorem sound_publishAll {c : Channel α} (h : c.Sound) (as : List α) : (c.publishAll as).Sound := by
  induction as generalizing c with
  | nil => exact h
  | cons a as ih => exact ih (sound_publish h a)

/-- What a reader gets: first that something is lost, if so, then what waits. -/
theorem receive_cases (c : Channel α) (position : Nat) :
    (position < c.oldest ∧ c.receive position = (.lagged (c.oldest - position), c.oldest))
      ∨ (¬ position < c.oldest ∧ c.waiting position = []
        ∧ c.receive position = (.empty, position))
      ∨ (¬ position < c.oldest ∧ ∃ a, c.waiting position = a :: c.waiting (position + 1)
        ∧ c.receive position = (.message a, position + 1)) := by
  unfold receive
  dsimp only
  split
  next hlost => exact Or.inl ⟨hlost, rfl⟩
  next hlost =>
    split
    next hnone => exact Or.inr (Or.inl ⟨hlost, hnone, rfl⟩)
    next a rest hw =>
      have hrest : c.waiting (position + 1) = rest := by
        have hkept : c.oldest ≤ position := Nat.not_lt.1 hlost
        unfold waiting
        rw [Nat.sub_add_comm hkept, ← List.drop_drop]
        unfold oldest
        rw [hw]
        rfl
      rw [hrest]
      exact Or.inr (Or.inr ⟨hlost, a, hw, rfl⟩)

/-- A change of data is lost to the reader, or waits for it. A loss may have been a change. -/
def Unseen {κ : Type} (c : Channel (Event κ)) (position : Nat) : Prop :=
  position < c.oldest ∨ ∃ e ∈ c.waiting position, e.changesData = true

section

variable {κ : Type} {c : Channel (Event κ)} {position p : Nat}

/-- What is unseen stays so while others publish. -/
theorem Unseen.publish (hc : c.Sound) (hp : position ≤ c.published) (h : c.Unseen position)
    (e : Event κ) : (c.publish e).Unseen position := by
  rcases Nat.lt_or_ge position (c.publish e).oldest with hlost | hkept
  · exact Or.inl hlost
  · right
    rw [waiting_publish hc hp hkept]
    rcases h with hlost | ⟨e', he', hchanges⟩
    · exact absurd (Nat.lt_of_lt_of_le hlost (oldest_publish hc e)) (Nat.not_lt.2 hkept)
    · exact ⟨e', List.mem_append_left _ he', hchanges⟩

/-- A change is unseen when it is published. -/
theorem unseen_publish (hc : c.Sound) (hp : position ≤ c.published) {e : Event κ}
    (he : e.changesData = true) : (c.publish e).Unseen position := by
  rcases Nat.lt_or_ge position (c.publish e).oldest with hlost | hkept
  · exact Or.inl hlost
  · right
    rw [waiting_publish hc hp hkept]
    exact ⟨e, List.mem_append_right _ (List.mem_singleton_self e), he⟩

/-- A reader for whom nothing is there has seen every change. -/
theorem not_unseen_of_empty (h : (c.receive position).1 = .empty) : ¬ c.Unseen position := by
  rcases c.receive_cases position with ⟨_, heq⟩ | ⟨hkept, hnone, _⟩ | ⟨_, a, _, heq⟩
  · rw [heq] at h
    cases h
  · rintro (hlost | ⟨e, he, _⟩)
    · exact hkept hlost
    · rw [hnone] at he
      exact List.not_mem_nil he
  · rw [heq] at h
    cases h

/-- A reader stays within what has been published. -/
theorem nextChange_le (hc : c.Sound) (hp : position ≤ c.published) :
    (World.nextChange c position).2 ≤ c.published := by
  unfold World.nextChange
  rcases c.receive_cases position with ⟨_, heq⟩ | ⟨_, _, heq⟩ | ⟨hkept, a, hw, heq⟩
  · rw [heq]
    exact Nat.sub_le _ _
  · rw [heq]
    exact hp
  · have hlen : 0 < (c.waiting position).length := by rw [hw]; exact Nat.succ_pos _
    rw [heq]
    unfold waiting oldest at hlen
    unfold Sound at hc
    rw [List.length_drop] at hlen
    dsimp only
    omega

/-- A reader that takes no notice has the same changes to see as before. -/
theorem Unseen.nextChange (h : c.Unseen position) (hquiet : (World.nextChange c position).1 ≠ some true) :
    c.Unseen (World.nextChange c position).2 := by
  unfold World.nextChange at hquiet ⊢
  rcases c.receive_cases position with ⟨_, heq⟩ | ⟨_, _, heq⟩ | ⟨hkept, a, hw, heq⟩
  · -- the reader takes a loss for a change
    rw [heq] at hquiet
    exact absurd rfl hquiet
  · rw [heq]
    exact h
  · rw [heq] at hquiet ⊢
    rcases h with hlost | ⟨e, he, hchanges⟩
    · exact absurd hlost hkept
    · rw [hw] at he
      rcases List.mem_cons.1 he with rfl | he
      · exact absurd (congrArg some hchanges) hquiet
      · exact Or.inr ⟨e, he, hchanges⟩

end

end Channel

namespace Busy

variable {κ ν : Type} [EntryKey κ]

/-! ## What makes a target fresh after an invalidation -/

/-- A load under way has started after the number `n` or finds the target invalidated. -/
structure Outrun (b : Busy κ ν) (t : Target κ) (n : Nat) : Prop where
  /-- The number has been drawn. -/
  drawn : n ≤ b.ledger.seq
  /-- The loads that had started by then are overtaken at the target. -/
  loads : ∀ load ∈ b.pending, b.ledger.isInvalidated t load.seq = true ∨ n < load.seq

/-- An invalidation outruns all loads under way. -/
theorem outrun_of_invalidates {b : Busy κ ν} (hb : Sound b) {t : Target κ} {op : Op κ ν}
    (h : b.Invalidates t op) : (b.step op).Outrun t (b.step op).ledger.seq where
  drawn := Nat.le_refl _
  loads load hload := Or.inl ((barred_of_invalidates hb h).invalidated load hload hload)

theorem outrun_step {b : Busy κ ν} (hb : Sound b) {t : Target κ} {n : Nat} (h : b.Outrun t n)
    (op : Op κ ν) : (b.step op).Outrun t n where
  drawn := Nat.le_trans h.drawn (seq_le_step b op)
  loads load hload := by
    rcases mem_pending_step hload with hold | hnew
    · exact (h.loads load hold).imp_left fun hi => (isInvalidated_step hb hload t).2 (Or.inl hi)
    · exact Or.inr (Nat.lt_of_le_of_lt h.drawn hnew)

/-- The step makes the target fresh: by a local write, or by a load that started after `n`. -/
def Renews (b : Busy κ ν) (t : Target κ) (n : Nat) (op : Op κ ν) : Prop :=
  b.WritesLocally t op ∨ ∃ load, b.Marks load t op ∧ n < load.seq

/-- What was outrun makes nothing fresh. -/
theorem renews_of_fresh {b : Busy κ ν} {t : Target κ} {n : Nat} (h : b.Outrun t n) {op : Op κ ν}
    (hstale : ¬ b.ledger.Fresh t) (hfresh : (b.step op).ledger.Fresh t) : b.Renews t n op := by
  rcases fresh_of_step hfresh with hf | hw | ⟨load, hm⟩
  · exact absurd hf hstale
  · exact Or.inl hw
  · refine Or.inr ⟨load, hm, ?_⟩
    -- only a commit marks, and that of a load which was outrun finds the target invalidated
    cases op with
    | commit seq now answer =>
        cases answer with
        | error cause => exact absurd hm not_false
        | ok entries =>
            obtain ⟨hp, _, hi⟩ := hm
            refine (h.loads load (pending?_spec hp).1).resolve_left fun hinv => ?_
            rw [hi] at hinv
            exact Bool.noConfusion hinv
    | _ => exact absurd hm not_false

end Busy

/-! ## The machine -/

/-- How far the task of a sync has come with an event. -/
inductive SyncStage where
  /-- It waits for the next event. -/
  | listening
  /-- The source has changed, and the target is to be marked outdated. -/
  | noticed
  /-- The target is marked, and it is to be seen whether somebody uses it. -/
  | marked
  /-- Somebody uses the target, and it is to be seen with which includes it was loaded. -/
  | used
  /-- The target is to be refreshed with some includes. -/
  | refreshing (inc : Includes)
  /-- It waits for the load with a number. -/
  | awaiting (seq : Nat)

/-- A resource, a single value that is kept in step with it, and the task that does so. -/
structure Synced (κ ν μ : Type) [EntryKey κ] where
  /-- The resource whose changes count. -/
  source : Busy κ ν
  /-- The events of the source that are yet to be published. -/
  outbox : List (Event κ) := []
  /-- The channel of the source. -/
  channel : Channel (Event κ) := {}
  /-- The single value that is outdated by them. -/
  target : Busy Sole μ
  /-- The registered uses of the target. -/
  uses : Uses Sole := {}
  /-- The number of the event that the task reads next. -/
  position : Nat
  /-- How far the task has come. -/
  stage : SyncStage := .listening

/-- What can happen to a resource and the value that is kept in step with it. -/
inductive SyncMove (κ ν μ : Type) [EntryKey κ] where
  /-- A step of the source; its events are yet to be published. -/
  | source (op : Op κ ν)
  /-- An event of the source is published, in any order. -/
  | publish (i : Nat)
  /-- A step of the target, whoever asks for it. -/
  | target (op : Op Sole μ)
  /-- Register a use of the target. -/
  | use (key : Key Sole) (id : UseId)
  /-- Free a use of the target. -/
  | free (key : Key Sole) (id : UseId)
  /-- The task goes on by the smallest step it has. -/
  | sync

namespace Synced

variable {κ ν μ : Type} [EntryKey κ]

/-- The key of the target. -/
abbrev sole : Key Sole := .single .only

/-- A sync that begins, with a source and a target that may have been at work before. -/
def begun (source : Busy κ ν) (earlier : List (Event κ)) (outbox : List (Event κ))
    (target : Busy Sole μ) (uses : Uses Sole) : Synced κ ν μ :=
  let channel := Channel.publishAll {} earlier
  { source := source, outbox := outbox, channel := channel, target := target, uses := uses
    position := channel.published }

/-- What the task does next to the target, if anything. A load that broke off is cleaned up by whoever
waits for it. -/
def taskOp (s : Synced κ ν μ) : Option (Op Sole μ) :=
  match s.stage with
  | .noticed => some (.markOutdated sole)
  | .refreshing inc => some (.start sole inc true)
  | .awaiting seq => if (s.target.pending? seq).isSome then none else some (.abort seq)
  | .listening | .marked | .used => none

/-- Where the task stands after its next step. -/
def nextStage (s : Synced κ ν μ) : SyncStage :=
  match s.stage with
  | .listening =>
    match (World.nextChange s.channel s.position).1 with
    | some true => .noticed
    | _ => .listening
  | .noticed => .marked
  | .marked => if s.uses.isUsed sole then .used else .listening
  | .used => .refreshing (s.target.ledger.metaOf (.key .only)).includes
  | .refreshing inc =>
    match (s.target.cache.start s.target.name s.target.policy sole inc true).result with
    | .joined seq => .awaiting seq
    | .begun load => .awaiting load.seq
    | .rejected _ | .fresh => .listening
  | .awaiting seq => if (s.target.pending? seq).isSome then .awaiting seq else .listening

/-- What the task reads next after its next step. -/
def nextPosition (s : Synced κ ν μ) : Nat :=
  match s.stage with
  | .listening => (World.nextChange s.channel s.position).2
  | _ => s.position

/-- What a move does to the target, if anything. -/
def targetOp (s : Synced κ ν μ) : SyncMove κ ν μ → Option (Op Sole μ)
  | .target op => some op
  | .sync => s.taskOp
  | _ => none

/-- The event that a move publishes, if any. -/
def published (s : Synced κ ν μ) : SyncMove κ ν μ → Option (Event κ)
  | .publish i => s.outbox[i]?
  | _ => none

/-- One move. -/
def step (s : Synced κ ν μ) (m : SyncMove κ ν μ) : Synced κ ν μ :=
  let s' : Synced κ ν μ :=
    { s with
      target := match s.targetOp m with
        | some op => s.target.step op
        | none => s.target
      channel := match s.published m with
        | some e => s.channel.publish e
        | none => s.channel }
  match m with
  | .source op => { s' with source := s.source.step op, outbox := s.outbox ++ s.source.emits op }
  | .publish i => { s' with outbox := s.outbox.eraseIdx i }
  | .target _ => s'
  | .use key id => { s' with uses := s.uses.register key id }
  | .free key id => { s' with uses := s.uses.free key id }
  | .sync => { s' with stage := s.nextStage, position := s.nextPosition }

/-- Some moves, one after the other. -/
def run (s : Synced κ ν μ) (moves : List (SyncMove κ ν μ)) : Synced κ ν μ := moves.foldl step s

theorem run_append (s : Synced κ ν μ) (moves moves' : List (SyncMove κ ν μ)) :
    s.run (moves ++ moves') = (s.run moves).run moves' :=
  List.foldl_append

theorem target_step (s : Synced κ ν μ) (m : SyncMove κ ν μ) :
    (s.step m).target = match s.targetOp m with
      | some op => s.target.step op
      | none => s.target := by
  cases m <;> rfl

theorem channel_step (s : Synced κ ν μ) (m : SyncMove κ ν μ) :
    (s.step m).channel = match s.published m with
      | some e => s.channel.publish e
      | none => s.channel := by
  cases m <;> rfl

/-- What holds of the target and is kept by its steps is kept by every move. -/
theorem target_step_of {P : Busy Sole μ → Prop} {s : Synced κ ν μ} (h : P s.target)
    (hstep : ∀ op, P (s.target.step op)) (m : SyncMove κ ν μ) : P (s.step m).target := by
  rw [target_step]
  cases s.targetOp m with
  | none => exact h
  | some op => exact hstep op

/-- The answer to the marking: the includes with which the target was loaded, if somebody uses it. -/
theorem markTarget_snd (slot : World.Slot Sole μ) :
    (World.markTarget slot).2 = if slot.resource.uses.isUsed sole then
      some ((World.markTarget slot).1.resource.cache.ledger.metaOf (.key .only)).includes else none := by
  unfold World.markTarget Ledger.metaOf
  dsimp only
  split
  next hused =>
    refine Eq.trans (congrArg some ?_) (if_pos hused).symm
    split
    next hmeta => exact congrArg (fun o => (Option.getD o {}).includes) hmeta.symm
    next hmeta => exact congrArg (fun o => (Option.getD o {}).includes) hmeta.symm
  next hfree => exact (if_neg hfree).symm

/-- **Uninterrupted, the task does what a world does when a source has changed**: it marks the target
outdated and, if somebody uses the target, goes on to refresh it with the includes it was loaded
with. -/
theorem markTarget_eq {s : Synced κ ν μ} (hstage : s.stage = .noticed) {slot : World.Slot Sole μ}
    (hcache : slot.resource.cache = s.target.cache) (huses : slot.resource.uses = s.uses) :
    (World.markTarget slot).1.resource.cache = (s.step .sync).target.cache
      ∧ match (World.markTarget slot).2 with
        | none => (s.run [.sync, .sync]).stage = .listening
        | some inc => (s.run [.sync, .sync, .sync]).stage = .refreshing inc := by
  have htarget : (s.step .sync).target = s.target.step (.markOutdated sole) := by
    rw [target_step, targetOp, taskOp, hstage]
  have hmarked : (World.markTarget slot).1.resource.cache = (s.step .sync).target.cache := by
    rw [htarget]
    show (slot.resource.cache.markOutdated sole).cache = (s.target.cache.markOutdated sole).cache
    rw [hcache]
  have hanswer : (World.markTarget slot).2 = if s.uses.isUsed sole then
      some ((s.step .sync).target.ledger.metaOf (.key .only)).includes else none := by
    rw [markTarget_snd, huses, hmarked]
  have hfirst : (s.step .sync).stage = .marked := by
    show s.nextStage = _
    rw [nextStage, hstage]
  have hsecond : (s.run [.sync, .sync]).stage = if s.uses.isUsed sole then .used else .listening := by
    show (s.step .sync).nextStage = _
    rw [nextStage, hfirst]
    rfl
  have hkept : (s.run [.sync, .sync]).target = (s.step .sync).target := by
    show ((s.step .sync).step .sync).target = _
    rw [target_step, targetOp, taskOp, hfirst]
  refine ⟨hmarked, ?_⟩
  rw [hanswer]
  by_cases hused : s.uses.isUsed sole = true
  · rw [if_pos hused]
    rw [if_pos hused] at hsecond
    show (s.run [.sync, .sync]).nextStage = _
    rw [nextStage, hsecond, hkept]
  · rw [if_neg hused]
    rw [if_neg hused] at hsecond
    exact hsecond

/-! ## What is due -/

/-- The machine is in order. -/
structure Sound (s : Synced κ ν μ) : Prop where
  /-- The books of the target agree with its loads. -/
  target : s.target.Sound
  /-- The channel has published what it keeps. -/
  channel : s.channel.Sound
  /-- The task is not ahead of the channel. -/
  position : s.position ≤ s.channel.published

theorem sound_begun (source : Busy κ ν) (earlier outbox : List (Event κ)) {target : Busy Sole μ}
    (ht : target.Sound) (uses : Uses Sole) : (begun source earlier outbox target uses).Sound where
  target := ht
  channel := Channel.sound_publishAll (c := {}) (Nat.le_refl 0) earlier
  position := Nat.le_refl _

theorem sound_step {s : Synced κ ν μ} (h : s.Sound) (m : SyncMove κ ν μ) : (s.step m).Sound := by
  have hchannel : (s.step m).channel.Sound ∧ s.channel.published ≤ (s.step m).channel.published := by
    rw [channel_step]
    cases s.published m with
    | none => exact ⟨h.channel, Nat.le_refl _⟩
    | some e => exact ⟨Channel.sound_publish h.channel e, Nat.le_succ _⟩
  refine ⟨target_step_of h.target (Busy.sound_step h.target) m, hchannel.1, ?_⟩
  cases m with
  | sync =>
      show s.nextPosition ≤ s.channel.published
      unfold nextPosition
      split
      · exact Channel.nextChange_le h.channel h.position
      · exact h.position
  | _ => exact Nat.le_trans h.position hchannel.2

/-- The source has changed, and the target is yet to be marked for it. -/
def Due (s : Synced κ ν μ) : Prop := s.channel.Unseen s.position ∨ s.stage = .noticed

/-- The move publishes an event that changes data. -/
def Changes (s : Synced κ ν μ) (m : SyncMove κ ν μ) : Prop :=
  ∃ e, s.published m = some e ∧ e.changesData = true

/-- What is published is due. -/
theorem due_of_changes {s : Synced κ ν μ} (h : s.Sound) {m : SyncMove κ ν μ} (hm : s.Changes m) :
    (s.step m).Due := by
  obtain ⟨e, he, hchanges⟩ := hm
  cases m with
  | publish i =>
      left
      rw [channel_step, he]
      exact Channel.unseen_publish h.channel h.position hchanges
  | _ => cases he

/-- The task passes over no change: it sees it where it is, or notices it. -/
theorem due_sync {s : Synced κ ν μ} (h : s.channel.Unseen s.position) : (s.step .sync).Due := by
  unfold Due
  show s.channel.Unseen s.nextPosition ∨ s.nextStage = .noticed
  unfold nextPosition nextStage
  cases hstage : s.stage with
  | listening =>
      by_cases hchange : (World.nextChange s.channel s.position).1 = some true
      · right
        dsimp only
        rw [hchange]
      · exact Or.inl (h.nextChange hchange)
  | _ => exact Or.inl h

/-- **What is due stays due until the target is marked.** -/
theorem due_step {s : Synced κ ν μ} (h : s.Sound) (hdue : s.Due) (m : SyncMove κ ν μ) :
    (s.step m).Due ∨ (m = .sync ∧ s.stage = .noticed) := by
  cases m with
  | sync =>
      rcases hdue with hunseen | hnoticed
      · exact Or.inl (due_sync hunseen)
      · exact Or.inr ⟨rfl, hnoticed⟩
  | publish i =>
      left
      rcases hdue with hunseen | hnoticed
      · left
        rw [channel_step]
        cases s.published (.publish i) with
        | none => exact hunseen
        | some e => exact hunseen.publish h.channel h.position e
      · exact Or.inr hnoticed
  | _ => exact Or.inl hdue

/-- No event that changes data is published by the moves. -/
def Quiet : Synced κ ν μ → List (SyncMove κ ν μ) → Prop
  | _, [] => True
  | s, m :: moves => ¬ s.Changes m ∧ Quiet (s.step m) moves

theorem quiet_concat {s : Synced κ ν μ} {moves : List (SyncMove κ ν μ)} {m : SyncMove κ ν μ} :
    s.Quiet (moves ++ [m]) ↔ s.Quiet moves ∧ ¬ (s.run moves).Changes m := by
  induction moves generalizing s with
  | nil => exact and_comm
  | cons m' moves ih => exact (and_congr_right fun _ => ih).trans and_assoc.symm

theorem sound_run {s : Synced κ ν μ} (h : s.Sound) (moves : List (SyncMove κ ν μ)) :
    (s.run moves).Sound := by
  induction moves generalizing s with
  | nil => exact h
  | cons m moves ih => exact ih (sound_step h m)

/-- After a change, one is due, or the target was marked at a time when all changes were seen, and none
has been published since. -/
theorem due_run {s : Synced κ ν μ} (h : s.Sound) {moves : List (SyncMove κ ν μ)}
    (hchanged : ¬ s.Quiet moves) :
    (s.run moves).Due ∨ ∃ before after, moves = before ++ .sync :: after
      ∧ (s.run before).stage = .noticed
      ∧ ¬ (s.run before).channel.Unseen (s.run before).position
      ∧ ((s.run before).step .sync).Quiet after := by
  induction moves using List.reverseRecOn with
  | nil => exact absurd trivial hchanged
  | append_singleton moves m ih =>
      have hlast : s.run (moves ++ [m]) = (s.run moves).step m := run_append s moves [m]
      have hsound := sound_run h moves
      rw [hlast]
      by_cases hm : (s.run moves).Changes m
      · exact Or.inl (due_of_changes hsound hm)
      · have hearlier : ¬ s.Quiet moves := fun hquiet => hchanged (quiet_concat.2 ⟨hquiet, hm⟩)
        rcases ih hearlier with hdue | ⟨before, after, rfl, hstage, hseen, hquiet⟩
        · rcases due_step hsound hdue m with hdue | ⟨rfl, hstage⟩
          · exact Or.inl hdue
          · -- the target is marked now; this settles the matter unless more changes wait already
            by_cases hunseen : (s.run moves).channel.Unseen (s.run moves).position
            · exact Or.inl (due_sync hunseen)
            · exact Or.inr ⟨moves, [], rfl, hstage, hunseen, trivial⟩
        · refine Or.inr ⟨before, after ++ [m], by simp, hstage, hseen, quiet_concat.2 ⟨hquiet, ?_⟩⟩
          rw [run_append] at hm
          exact hm

/-! ## What makes the target fresh -/

/-- The target is fresh for a request without includes. -/
def Fresh (s : Synced κ ν μ) : Prop := s.target.ledger.Fresh (.key .only)

theorem outrun_run {s : Synced κ ν μ} (h : s.Sound) {t : Target Sole} {n : Nat}
    (hout : s.target.Outrun t n) (moves : List (SyncMove κ ν μ)) : (s.run moves).target.Outrun t n := by
  induction moves generalizing s with
  | nil => exact hout
  | cons m moves ih =>
      refine ih (sound_step h m) ?_
      exact target_step_of (P := (·.Outrun t n)) hout (Busy.outrun_step h.target hout) m

/-- The task by itself makes nothing fresh. -/
theorem not_renews_of_taskOp {s : Synced κ ν μ} {op : Op Sole μ} (h : s.taskOp = some op)
    (b : Busy Sole μ) (t : Target Sole) (n : Nat) : ¬ b.Renews t n op := by
  unfold taskOp at h
  split at h
  · cases h
    rintro (hw | ⟨load, hm, _⟩)
    · exact hw
    · exact hm
  · cases h
    rintro (hw | ⟨load, hm, _⟩)
    · exact hw
    · exact hm
  · split at h
    · cases h
    · cases h
      rintro (hw | ⟨load, hm, _⟩)
      · exact hw
      · exact hm
  all_goals cases h

/-- Once all loads under way are outrun, what makes the target fresh is a local write or a load that
started later, and never a step of the task. -/
theorem renewed_run {s : Synced κ ν μ} (h : s.Sound) {n : Nat} (hout : s.target.Outrun (.key .only) n)
    (hstale : ¬ s.Fresh) {moves : List (SyncMove κ ν μ)} (hfresh : (s.run moves).Fresh) :
    ∃ early op late, moves = early ++ .target op :: late ∧ ¬ (s.run early).Fresh
      ∧ (s.run early).target.Renews (.key .only) n op
      ∧ ∀ later, later <+: late → ((s.run early).step (.target op) |>.run later).Fresh := by
  induction moves using List.reverseRecOn with
  | nil => exact absurd hfresh hstale
  | append_singleton moves m ih =>
      have hlast : s.run (moves ++ [m]) = (s.run moves).step m := run_append s moves [m]
      rw [hlast] at hfresh
      by_cases hbefore : (s.run moves).Fresh
      · obtain ⟨early, op, late, rfl, hearly, hrenews, hsince⟩ := ih hbefore
        refine ⟨early, op, late ++ [m], by simp, hearly, hrenews, fun later hlater => ?_⟩
        rcases List.prefix_concat_iff.1 hlater with rfl | hlater
        · rw [run_append] at hfresh ⊢
          exact hfresh
        · exact hsince later hlater
      · -- the last move makes the target fresh, so it is a step of the target
        unfold Fresh at hfresh hbefore
        rw [target_step] at hfresh
        cases hop : (s.run moves).targetOp m with
        | none => rw [hop] at hfresh; exact absurd hfresh hbefore
        | some op =>
            rw [hop] at hfresh
            have hrenews := Busy.renews_of_fresh (outrun_run h hout moves) hbefore hfresh
            cases m with
            | target op' =>
                cases hop
                refine ⟨moves, op, [], rfl, hbefore, hrenews, fun later hlater => ?_⟩
                rw [List.prefix_nil.1 hlater]
                exact hfresh
            | sync => exact absurd hrenews (not_renews_of_taskOp hop _ _ _)
            | _ => cases hop

/--
**What is kept in step with a resource does not stay stale unnoticed.**

A sync begins with a source and a target that may have been at work before. Whatever the source, the
target, their consumers and the task do from then on, in any order: if in the end the task waits and
nothing is there for it to read, and the source has published a change of data meanwhile, then the task
has marked the target outdated at a time when it had seen every change published, lost messages counted
as changes, and none has been published since. And if the target is fresh in the end, for whatever
includes, then a step of the target after that marking has made it so, and it has been fresh ever since:
a local write, or the commit of a load that started after the marking. A load that was under way at the
marking is neither.
-/
theorem synced_never_stale (source : Busy κ ν) (earlier outbox : List (Event κ))
    {target : Busy Sole μ} (ht : target.Reachable) (uses : Uses Sole)
    (moves : List (SyncMove κ ν μ))
    (hwaits : ((begun source earlier outbox target uses).run moves).stage = .listening)
    (hempty : let s := (begun source earlier outbox target uses).run moves
      (s.channel.receive s.position).1 = .empty)
    (hchanged : ¬ (begun source earlier outbox target uses).Quiet moves) :
    let s := (begun source earlier outbox target uses).run moves
    ∃ before after, moves = before ++ .sync :: after ∧
      let marking := (begun source earlier outbox target uses).run before
      let marked := marking.step .sync
      marking.stage = .noticed ∧ marked.target = marking.target.step (.markOutdated sole)
        ∧ ¬ marking.channel.Unseen marking.position ∧ marked.Quiet after
        ∧ ∀ inc, s.target.cache.isOutdated sole inc = false →
          ∃ early op late, after = early ++ .target op :: late
            ∧ (∀ inc, (marked.run early).target.cache.isOutdated sole inc = true)
            ∧ (marked.run early).target.Renews (.key .only) marked.target.ledger.seq op
            ∧ ∀ later, later <+: late → (((marked.run early).step (.target op)).run later).Fresh := by
  intro s
  have hsound := sound_begun source earlier outbox (Busy.sound_reachable ht) uses
  -- nothing is due in the end, so the target was marked with all changes seen
  have hnotdue : ¬ s.Due := by
    rintro (hunseen | hnoticed)
    · exact Channel.not_unseen_of_empty hempty hunseen
    · rw [hwaits] at hnoticed
      exact SyncStage.noConfusion hnoticed
  obtain ⟨before, after, hmoves, hstage, hseen, hquiet⟩ :=
    (due_run hsound hchanged).resolve_left hnotdue
  refine ⟨before, after, hmoves, ?_⟩
  intro marking marked
  have hmarking : marking.Sound := sound_run hsound before
  have htarget : marked.target = marking.target.step (.markOutdated sole) := by
    show (marking.step .sync).target = _
    rw [target_step, targetOp, taskOp, hstage]
  refine ⟨hstage, htarget, hseen, hquiet, fun inc hinc => ?_⟩
  have hinv : marking.target.Invalidates (.key .only) (.markOutdated sole) := List.mem_cons_self
  have hout : marked.target.Outrun (.key .only) marked.target.ledger.seq := by
    rw [htarget]
    exact Busy.outrun_of_invalidates hmarking.target hinv
  have hstale : ¬ marked.Fresh := by
    unfold Fresh
    rw [htarget]
    exact Busy.not_fresh_of_invalidates hinv
  have hend : s = marked.run after := by
    show (begun source earlier outbox target uses).run moves = _
    rw [hmoves, run_append]
    rfl
  -- whatever the includes, what is not outdated is fresh without any
  have hfresh : (marked.run after).Fresh := by
    rw [← hend]
    by_contra hnot
    rw [Cache.isOutdated_single, Ledger.isOutdated_of_not_fresh hnot] at hinc
    exact Bool.noConfusion hinc
  obtain ⟨early, op, late, rfl, hearly, hrenews, hsince⟩ :=
    renewed_run (sound_step hmarking .sync) hout hstale hfresh
  refine ⟨early, op, late, rfl, fun inc => ?_, hrenews, hsince⟩
  rw [Cache.isOutdated_single]
  exact Ledger.isOutdated_of_not_fresh hearly inc

/-- The target is loading when the source changes, with nobody using it. The task marks it, the older
load commits and leaves it outdated; a local write makes it fresh. -/
theorem synced_never_stale_written :
    let source : Busy String Nat := Busy.new "session" {}
    let target : Busy Sole Nat := (Busy.new "settings" {}).step (.start sole Includes.none false)
    let write : Op Sole Nat := .setMany ⟨0, 0⟩ [(.only, 8)]
    let moves : List (SyncMove String Nat Nat) :=
      [.source (.setMany ⟨0, 0⟩ [("a", 1)]), .publish 0, .sync, .sync, .sync,
        .target (.commit 1 ⟨0, 0⟩ (.ok [(.only, 7)])), .target write]
    let s := (begun source [] [] target {}).run moves
    s.target.cache.isOutdated sole Includes.none = false
      ∧ ∃ before after, moves = before ++ .sync :: after ∧
        let marked := ((begun source [] [] target {}).run before).step .sync
        ∃ early op late, after = early ++ .target op :: late
          ∧ (marked.run early).target.Renews (.key .only) marked.target.ledger.seq op := by
  intro source target write moves s
  have ht : target.Reachable := (Busy.Reachable.init "settings" {}).tail _
  have hchanged : ¬ (begun source [] [] target {}).Quiet moves :=
    fun hquiet => hquiet.2.1 ⟨.updated ["a"], rfl, rfl⟩
  have hfresh : s.target.cache.isOutdated sole Includes.none = false := by decide +kernel
  obtain ⟨before, after, hmoves, _, _, _, _, hwhy⟩ :=
    synced_never_stale source [] [] ht {} moves rfl rfl hchanged
  obtain ⟨early, op, late, hafter, _, hrenews, _⟩ := hwhy Includes.none hfresh
  exact ⟨hfresh, before, after, hmoves, early, op, late, hafter, hrenews⟩

end Synced

end Larder
