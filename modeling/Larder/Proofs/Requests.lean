import Larder.Proofs.Leases

/-!
# What a binding does with its requests

A binding awaits at most one request. In one turn it goes on awaiting the same one for what it follows,
or awaits none any more, or makes a new one and awaits that. `Deals` says so once, for polls and for
everything else that the consumer can have the binding do. What a poll collects and what it asks for
afterwards are told apart in `poll_cases`.
-/

namespace Larder

/-- One turn of a binding. -/
structure Turn (κ ν : Type) [EntryKey κ] where
  move : Binding.Move κ ν
  /-- The request whose result is told, if one is. -/
  told : Option Nat := none
  /-- The request whose result the consumer waits for from now on, in place of polling. -/
  resolving : Option Nat := none

/-- The request that is awaited after the turn, by the binding or in place of it. -/
def Turn.awaits {κ ν : Type} [EntryKey κ] (t : Turn κ ν) : Option Nat :=
  t.resolving.or t.move.binding.request

namespace Binding

variable {κ ν : Type} [EntryKey κ] {b : Binding κ} {r : Resource κ ν} {n : Nat}

/-- A binding has a use of what it follows and is at rest if it follows nothing; and it does not wait while
it holds a failure. -/
structure Orderly (b : Binding κ) : Prop where
  bound : b.Bound
  idle : b.key = none → b.request = none ∧ b.exception = none
  exclusive : b.request = none ∨ b.exception = none

/-- What a turn does to the requests. The new request, if one is made, has the number `n`. -/
inductive Deals (b : Binding κ) (r : Resource κ ν) (n : Nat) (t : Turn κ ν) : Prop where
  /-- The same request is awaited as before, for the same key and includes. -/
  | keeps (uses : Uses κ) (resource : t.move.resource = { r with uses := uses })
      (started : t.move.started = none) (awaits : t.awaits = b.request) (told : t.told = none)
      (key : t.move.binding.key = b.key) (includes : t.move.binding.includes = b.includes)
  /-- No request is awaited any more. -/
  | leaves (uses : Uses κ) (resource : t.move.resource = { r with uses := uses })
      (started : t.move.started = none) (awaits : t.awaits = none)
  /-- A new request is awaited, made for the key and the includes. -/
  | asks (key : Key κ) (force : Bool) (followed : t.move.binding.key = some key)
      (resource : t.move.resource = (r.start key t.move.binding.includes force).1)
      (started : t.move.started = some (r.start key t.move.binding.includes force).2)
      (awaits : t.awaits = some n)

theorem release_eq (b : Binding κ) (r : Resource κ ν) :
    ∃ uses, b.release r = ({ b with use := none }, { r with uses := uses }) := by
  unfold release
  split
  · exact ⟨_, rfl⟩
  · exact ⟨r.uses, rfl⟩

theorem setKey_eq (b : Binding κ) (r : Resource κ ν) (key : Option (Key κ)) (id : UseId) :
    (b.key = key ∧ b.setKey r key id = (b, r))
      ∨ ∃ uses, b.setKey r key id
          = ({ b with key := key, use := key.map fun _ => id, request := none, exception := none },
            { r with uses := uses }) := by
  unfold setKey
  split
  · rename_i hsame
    exact Or.inl ⟨hsame.1, rfl⟩
  · right
    obtain ⟨uses, hrelease⟩ := b.release_eq r
    rw [hrelease]
    cases key with
    | none => exact ⟨uses, rfl⟩
    | some k => exact ⟨uses.register k id, rfl⟩

theorem beginResolve_eq (b : Binding κ) (r : Resource κ ν) :
    (b.key = none ∧ b.beginResolve r = (b, r, none))
      ∨ ∃ key, b.key = some key ∧ b.beginResolve r
          = ({ b with request := none }, (r.start key b.includes false).1,
            some (r.start key b.includes false).2) := by
  unfold beginResolve
  cases b.key with
  | none => exact Or.inl ⟨rfl, rfl⟩
  | some key => exact Or.inr ⟨key, rfl, rfl⟩

omit [EntryKey κ] in
theorem setIncludes_eq (b : Binding κ) (inc : Includes) :
    (b.includes = inc ∧ b.setIncludes inc = b)
      ∨ b.setIncludes inc = { b with includes := inc, request := none, exception := none } := by
  unfold setIncludes
  split
  · exact Or.inl ⟨‹_›, rfl⟩
  · exact Or.inr rfl

/-- Collecting a result leaves what is followed, and how. -/
theorem collect_follows (b : Binding κ) (r : Resource κ ν) (result : Option LoadResult) :
    (b.collect r result).1.key = b.key ∧ (b.collect r result).1.includes = b.includes
      ∧ (b.collect r result).1.options = b.options := by
  unfold collect
  split <;> exact ⟨rfl, rfl, rfl⟩

/-- A poll may ask for what is followed and outdated, if nothing holds the binding back. -/
theorem canLoad_iff :
    b.canLoad r = true ↔ ∃ key, b.key = some key ∧ b.options.active = true ∧ b.options.freeze = false
      ∧ b.request = none ∧ b.exception = none ∧ r.cache.isOutdated key b.includes = true := by
  unfold canLoad
  cases b.key with
  | none => simp
  | some key => simp [and_assoc]

/-- A poll collects, and then asks or does not. -/
theorem poll_cases (b : Binding κ) (r : Resource κ ν) (result : Option LoadResult) (n : Nat) :
    let c := (b.collect r result).1
    let notices := (b.collect r result).2
    (∃ key, c.key = some key ∧ c.canLoad r = true
        ∧ b.poll r result n
          = ({ binding := { c with request := some n }
               resource := (r.start key c.includes false).1
               notices := notices
               started := some (r.start key c.includes false).2 }, true))
      ∨ (c.canLoad r = false
        ∧ b.poll r result n = ({ binding := c, resource := r, notices := notices }, result.isSome)) := by
  intro c notices
  cases hload : c.canLoad r with
  | false =>
      right
      unfold poll
      dsimp only
      rw [if_neg (Bool.eq_false_iff.1 hload)]
      exact ⟨rfl, rfl⟩
  | true =>
      left
      obtain ⟨key, hkey, _⟩ := canLoad_iff.1 hload
      refine ⟨key, hkey, rfl, ?_⟩
      unfold poll ask
      dsimp only
      rw [if_pos hload, show (b.collect r result).1.key = some key from hkey]

/-- A poll tells what it collects, and the failure it holds is of what it collects. -/
theorem poll_collects (b : Binding κ) (r : Resource κ ν) (result : Option LoadResult) (n : Nat) :
    (b.poll r result n).1.notices = (b.collect r result).2
      ∧ (b.poll r result n).1.binding.exception = (b.collect r result).1.exception := by
  rcases b.poll_cases r result n with ⟨_, _, _, hpoll⟩ | ⟨_, hpoll⟩
  · rw [hpoll]
    exact ⟨rfl, rfl⟩
  · rw [hpoll]
    exact ⟨rfl, rfl⟩

/-- Whatever a poll has collected, it waits for the new request or for what is left. -/
theorem deals_poll {b' : Binding κ} {result : Option LoadResult} {t : Turn κ ν}
    (hmove : t.move = (b'.poll r result n).1) (hresolving : t.resolving = none)
    (hkeep : (b'.collect r result).1.request = none ∨ (b'.collect r result).1 = b ∧ t.told = none) :
    b.Deals r n t := by
  have hawaits : t.awaits = t.move.binding.request := by
    unfold Turn.awaits
    rw [hresolving, Option.none_or]
  rcases b'.poll_cases r result n with ⟨key, hkey, _, hpoll⟩ | ⟨_, hpoll⟩
  · rw [hpoll] at hmove
    refine .asks key false ?_ ?_ ?_ ?_
    · rw [hmove]
      exact hkey
    · rw [hmove]
    · rw [hmove]
    · rw [hawaits, hmove]
  · -- nothing is asked, so what is awaited is what the collecting has left
    rw [hpoll] at hmove
    rcases hkeep with hnone | ⟨hsame, htold⟩
    · refine .leaves r.uses ?_ ?_ ?_
      · rw [hmove]
      · rw [hmove]
      · rw [hawaits, hmove]
        exact hnone
    · refine .keeps r.uses ?_ ?_ ?_ htold ?_ ?_
      · rw [hmove]
      · rw [hmove]
      · rw [hawaits, hmove, ← hsame]
      · rw [hmove, ← hsame]
      · rw [hmove, ← hsame]

theorem deals_ask {b' : Binding κ} (hb' : b' = { b with exception := none }) (force : Bool) :
    b.Deals r n { move := b'.ask r force n } := by
  subst hb'
  unfold ask
  cases hkey : b.key with
  | none => exact .keeps r.uses rfl rfl rfl rfl hkey.symm rfl
  | some key => exact .asks key force rfl rfl rfl rfl

/-- Collecting a result ends the wait, whatever the result. -/
theorem request_collect (b : Binding κ) (r : Resource κ ν) (result : LoadResult) :
    (b.collect r (some result)).1.request = none := by
  rcases result with _ | _ <;> rfl

theorem orderly_poll (h : b.Orderly) {result : Option LoadResult} (hresult : result = none ∨ b.key ≠ none) :
    (b.poll r result n).1.binding.Orderly := by
  have hkey := (b.keeps_poll r result n).key
  refine ⟨(b.keeps_poll r result n).bound h.bound, fun hnone => ?_, ?_⟩
  · -- what follows nothing has nothing to collect, and can ask for nothing
    rw [hkey] at hnone
    obtain rfl := hresult.resolve_right (absurd hnone)
    rcases b.poll_cases r none n with ⟨key, hfollowed, _⟩ | ⟨_, hpoll⟩
    · cases hnone.symm.trans hfollowed
    · rw [hpoll]
      exact h.idle hnone
  · rcases b.poll_cases r result n with ⟨key, _, hload, hpoll⟩ | ⟨_, hpoll⟩
    · obtain ⟨_, _, _, _, _, hnone, _⟩ := canLoad_iff.1 hload
      rw [hpoll]
      exact Or.inr hnone
    · rw [hpoll]
      cases result with
      | none => exact h.exclusive
      | some result => exact Or.inl (b.request_collect r result)

theorem orderly_ask (h : b.Orderly) (force : Bool) :
    ({ b with exception := none }.ask r force n).binding.Orderly := by
  refine ⟨({ b with exception := none }.keeps_ask r force n).bound h.bound, ?_, Or.inr ?_⟩
  · unfold ask
    dsimp only
    split
    · exact fun hnone => ⟨(h.idle hnone).1, rfl⟩
    · rename_i key hkey
      exact fun hnone => by cases hnone.symm.trans hkey
  · unfold ask
    split <;> rfl

end Binding

end Larder
