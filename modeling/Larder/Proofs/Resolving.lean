import Larder.Proofs.Outcome

/-!
# What aliases stand for

A cache looks up what an alias stands for in the resolvers that were registered. Of all operations only a
registration touches them, so an alias that nobody registers anew keeps its meaning over every run.
-/

namespace Larder

namespace Cache

variable {κ ν : Type} [EntryKey κ]

theorem resolve_byAlias {c : Cache κ ν} {a : Alias} {r : Resolver κ ν}
    (h : c.resolvers.get? a.name = some r) : c.resolve (.byAlias a) = r a c.data := by
  simp only [resolve, h]

theorem resolvers_removeAll (ks : List κ) (seq : Nat) (c : Cache κ ν) :
    (c.removeAll ks seq).resolvers = c.resolvers := by
  induction ks generalizing c with
  | nil => rfl
  | cons k ks ih =>
      rw [removeAll_cons, ih]
      rfl

theorem resolvers_writeLocally (p : Policy κ ν) (now : Instant) (seq : Nat) (entries : List (κ × ν))
    (c : Cache κ ν) : (writeLocally p now seq entries c).1.resolvers = c.resolvers := by
  fun_induction writeLocally p now seq entries c with
  | case1 c => rfl
  | case2 k v rest c hw => rfl
  | case3 k v rest c c' hw ih =>
      obtain ⟨merged, _, rfl⟩ := Option.map_eq_some_iff.1 hw
      exact ih

theorem resolvers_writeLoaded (p : Policy κ ν) (now : Instant) (inc : Includes) (seq : Nat)
    (entries : List (κ × ν)) (c : Cache κ ν) :
    (writeLoaded p now inc seq entries c).cache.resolvers = c.resolvers := by
  fun_induction writeLoaded p now inc seq entries c with
  | case1 c => rfl
  | case2 k v rest c hk ih => exact ih
  | case3 k v rest c hk hw => rfl
  | case4 k v rest c hk c' hw w ih =>
      obtain ⟨merged, _, rfl⟩ := Option.map_eq_some_iff.1 hw
      exact ih

theorem resolvers_purge (c : Cache κ ν) (tracked : List (Key κ)) (cutoff : Instant) :
    (c.purge tracked cutoff).cache.resolvers = c.resolvers := by
  by_cases he : c.expired tracked cutoff = []
  · rw [purge_of_nil he]
  · rw [cache_purge he]
    exact resolvers_removeAll _ _ c.draw

theorem resolvers_commit (c : Cache κ ν) (name : String) (p : Policy κ ν) (now : Instant)
    (load : PendingLoad κ) (answer : Except Cause (List (κ × ν))) :
    (c.commit name p now load answer).cache.resolvers = c.resolvers := by
  cases answer with
  | error cause => rfl
  | ok entries =>
      have hwrites : (c.commitWrites p now load entries).cache.resolvers = c.resolvers :=
        (resolvers_writeLoaded p now _ _ entries _).trans (resolvers_removeAll _ _ (c.finished load))
      rw [commit_ok]
      split
      · exact hwrites
      · exact hwrites

end Cache

namespace Busy

variable {κ ν : Type} [EntryKey κ]

/-- Nothing but a registration changes what an alias stands for. -/
theorem resolvers_step (b : Busy κ ν) {op : Op κ ν} (h : ∀ name r, op ≠ .register name r) :
    (b.step op).cache.resolvers = b.cache.resolvers := by
  cases op with
  | setMany now entries =>
      show (b.cache.setMany b.policy now entries).cache.resolvers = _
      have hwrite := Cache.resolvers_writeLocally b.policy now (b.ledger.seq + 1) entries b.cache.draw
      rcases b.cache.setMany_cases b.policy now entries with ⟨_, hset⟩ | ⟨_, hset⟩
      · rw [hset]; exact hwrite
      · rw [hset]; exact hwrite
  | replace now entries =>
      show (b.cache.replace b.policy now entries).cache.resolvers = _
      have hwrite := (Cache.resolvers_writeLocally b.policy now (b.ledger.seq + 1) entries
        (b.cache.replaceBase entries)).trans (Cache.resolvers_removeAll _ _ b.cache.draw)
      rcases b.cache.replace_cases b.policy now entries with ⟨_, hset⟩ | ⟨_, hset⟩
      · rw [hset]; exact hwrite
      · rw [hset]; exact hwrite
  | update k f =>
      show (b.cache.update k f).cache.resolvers = _
      unfold Cache.update
      cases b.cache.data.get? k <;> rfl
  | delete key =>
      show (Cache.removeEach _ _ b.cache.draw).1.resolvers = _
      rw [Cache.removeEach_fst]
      exact Cache.resolvers_removeAll _ _ b.cache.draw
  | purge tracked cutoff => exact Cache.resolvers_purge b.cache tracked cutoff
  | register name r => exact absurd rfl (h name r)
  | start key inc force =>
      rw [step_start]
      rcases b.cache.start_cases b.name b.policy key inc force with ⟨hcache, _⟩ | ⟨_, hstart⟩
      · rw [hcache]
      · rw [hstart]
  | commit seq now answer =>
      cases hp : b.pending? seq with
      | none => rw [step_commit_of_none hp]
      | some load =>
          rw [step_commit_of_some hp]
          exact Cache.resolvers_commit _ _ _ now load answer
  | abort seq =>
      cases hl : b.loose? seq with
      | none => rw [step_abort_of_none hl]
      | some load => rw [step_abort_of_some hl]; rfl
  | _ => rfl

/-- And only one under its own name changes the meaning of an alias. -/
theorem resolver_step (b : Busy κ ν) {op : Op κ ν} {name : String} (h : ∀ r, op ≠ .register name r) :
    (b.step op).cache.resolvers.get? name = b.cache.resolvers.get? name := by
  by_cases hregister : ∃ name' r, op = .register name' r
  · obtain ⟨name', r, rfl⟩ := hregister
    have hne : ¬ name' = name := by
      rintro rfl
      exact h r rfl
    exact (Table.get?_set _ _ _ _).trans (if_neg hne)
  · rw [b.resolvers_step fun name' r heq => hregister ⟨name', r, heq⟩]

theorem resolver_run (b : Busy κ ν) {ops : List (Op κ ν)} {name : String}
    (h : ∀ r, .register name r ∉ ops) :
    (b.run ops).cache.resolvers.get? name = b.cache.resolvers.get? name := by
  induction ops generalizing b with
  | nil => rfl
  | cons op ops ih =>
      have hop : ∀ r, op ≠ .register name r := fun r heq => h r (heq ▸ List.mem_cons_self)
      rw [run_cons, ih (b.step op) fun r hr => h r (List.mem_cons_of_mem op hr)]
      exact b.resolver_step hop

end Busy

end Larder
