import Larder.Proofs.Books

/-!
# What a commit changes and what it leaves

While a load is under way anything may happen to the keys it will bring. The commit passes over
every key that was touched meanwhile: the stamp of the touch is greater than the number of the load,
and no settling has dropped it, because the load was running all along. So an older load never
overwrites what is newer.

A load that succeeds marks all other keys it was asked for as loaded with its includes, the keys the
answer lacks too. Those it passes over keep the record that the later load has made of them, and may
be outdated for its includes all the same.
-/

namespace Larder

namespace Busy

variable {κ ν : Type} [EntryKey κ]

/-! ## What was touched meanwhile -/

/--
**No stale overwrite.**

Once a step has touched a key while a load is under way, the commit of the load leaves the value and
the record of the key as they are, whatever the load answers. Only the count of the loads that run
for the key may go down.
-/
theorem commit_keeps_touched {b : Busy κ ν} (hb : Reachable b) (ops : List (Op κ ν))
    {load : PendingLoad κ} (hload : load ∈ (b.run ops).pending) {k : κ}
    (htouch : Once (fun b op => load ∈ b.pending ∧ b.Touches k load.seq op) b ops)
    (now : Instant) (answer : Except Cause (List (κ × ν))) :
    ((b.run ops).step (.commit load.seq now answer)).cache.data.get? k
        = (b.run ops).cache.data.get? k
      ∧ (b.run ops).ledger.SameRecord
          ((b.run ops).step (.commit load.seq now answer)).ledger (.key k) := by
  have hsound := sound_reachable hb
  have hsuper : (b.run ops).ledger.isSuperseded k load.seq = true :=
    (isSuperseded_run hsound hload k).2 (Or.inr htouch)
  have hcache := cache_step_commit (sound_run hsound ops) hload now answer
  unfold ledger
  rw [hcache]
  exact ⟨Cache.data_commit_of_superseded hsuper _ _ now answer,
    Cache.sameRecord_commit_of_superseded hsuper _ _ now answer⟩

/-- A key that is deleted while the load of it is under way is not written back. -/
theorem commit_keeps_deleted :
    let b : Busy String Nat := new "entries" {}
    let ops : List (Op String Nat) :=
      [.start (.single "a") Includes.none false, .delete (.single "a")]
    let load : PendingLoad String := ⟨⟨.single "a", Includes.none⟩, 1, [.key "a"]⟩
    Reachable b ∧ load ∈ (b.run ops).pending
      ∧ Once (fun b op => load ∈ b.pending ∧ b.Touches "a" load.seq op) b ops
      ∧ ((b.run ops).step (.commit 1 ⟨0, 0⟩ (.ok [("a", 7)]))).cache.data.get? "a" = none := by
  intro b ops load
  have hload : load ∈ (b.run ops).pending := List.mem_cons_self
  have htouch : Once (fun b op => load ∈ b.pending ∧ b.Touches "a" load.seq op) b ops :=
    Or.inr (Or.inl ⟨List.mem_cons_self, List.mem_cons_self⟩)
  refine ⟨.init _ _, hload, htouch, ?_⟩
  exact (commit_keeps_touched (.init _ _) ops hload htouch ⟨0, 0⟩ (.ok [("a", 7)])).1

end Busy

/-! ## What a successful load marks -/

namespace EntryMeta

/-- A record is fresh for the includes it was last loaded with. -/
theorem isStale_afterLoad (m : EntryMeta) (inc : Includes) (now : Instant) :
    (m.afterLoad inc now).isStale inc = false := by
  have hcovered : inc.coveredBy (m.afterLoad inc now).includes = true := by
    unfold afterLoad
    dsimp only
    split
    · exact Includes.coveredBy_union m.includes inc
    · exact Includes.coveredBy_self inc
  unfold isStale
  rw [hcovered]
  rfl

end EntryMeta

namespace Ledger

variable {κ : Type} [DecidableEq κ]

theorem isOutdated_congr {l l' : Ledger κ} {t : Target κ} (h : l'.meta? t = l.meta? t)
    (inc : Includes) : l'.isOutdated t inc = l.isOutdated t inc := by
  unfold isOutdated
  rw [h]

theorem isOutdated_markLoaded (l : Ledger κ) (t : Target κ) (inc : Includes) (now : Instant) :
    (l.markLoaded t inc now).isOutdated t inc = false := by
  unfold isOutdated
  rw [meta?_markLoaded, if_pos rfl]
  exact (l.metaOf t).isStale_afterLoad inc now

/-- Marking makes nothing outdated for the includes it marks with. -/
theorem isOutdated_markLoadedBy {l : Ledger κ} {t : Target κ} {inc : Includes}
    (h : l.isOutdated t inc = false) (u : Target κ) (now : Instant) (seq : Nat) :
    (l.markLoadedBy u inc now seq).isOutdated t inc = false := by
  by_cases hu : u = t
  · subst hu
    unfold markLoadedBy
    split
    · exact h
    · exact isOutdated_markLoaded l u inc now
  · rw [isOutdated_congr (meta?_markLoadedBy_of_ne l hu inc now seq)]
    exact h

end Ledger

namespace Cache

variable {κ ν : Type} [EntryKey κ]

theorem isOutdated_markAnswered_of_fresh {l : Ledger κ} {t : Target κ} {inc : Includes}
    (h : l.isOutdated t inc = false) (ts : List (Target κ)) (now : Instant) (seq : Nat) :
    (markAnswered ts inc now seq l).isOutdated t inc = false := by
  induction ts generalizing l with
  | nil => exact h
  | cons u ts ih => exact ih (Ledger.isOutdated_markLoadedBy h u now seq)

/-- What a load answers for and was not invalidated meanwhile is fresh for its includes. -/
theorem isOutdated_markAnswered {ts : List (Target κ)} {t : Target κ} (ht : t ∈ ts)
    {l : Ledger κ} {seq : Nat} (hi : l.isInvalidated t seq = false) (inc : Includes)
    (now : Instant) : (markAnswered ts inc now seq l).isOutdated t inc = false := by
  induction ts generalizing l with
  | nil => exact absurd ht List.not_mem_nil
  | cons u ts ih =>
      rw [markAnswered_cons]
      rcases List.mem_cons.1 ht with rfl | hin
      · refine isOutdated_markAnswered_of_fresh ?_ ts now seq
        rw [Ledger.markLoadedBy, if_neg (by rw [hi]; exact Bool.false_ne_true)]
        exact Ledger.isOutdated_markLoaded l t inc now
      · refine ih hin ?_
        rw [(Ledger.sameBooks_markLoadedBy l u inc now seq).isInvalidated]
        exact hi

/-- A load that succeeds makes fresh what it was asked for, unless that was invalidated meanwhile. -/
theorem isOutdated_commit (name : String) {c : Cache κ ν} {p : Policy κ ν} {now : Instant}
    {load : PendingLoad κ} {entries : List (κ × ν)} {t : Target κ}
    (hok : (c.commitWrites p now load entries).complete = true)
    (ht : t ∈ load.signature.key.requested) (hi : c.ledger.isInvalidated t load.seq = false) :
    (c.commit name p now load (.ok entries)).cache.ledger.isOutdated t load.signature.includes
      = false := by
  rcases ledger_commit_ok c name p now load entries with ⟨hbroken, _⟩ | ⟨_, hl⟩
  · rw [hok] at hbroken
    exact Bool.noConfusion hbroken
  · rw [hl, Ledger.isOutdated_congr (Ledger.meta?_settle _ t)]
    refine isOutdated_markAnswered ht ?_ _ now
    rw [isInvalidated_commitWrites]
    exact hi

/-- Where nothing but writes has happened meanwhile, a key that a successful load was asked for is
outdated afterwards exactly if it was written meanwhile and left outdated. -/
theorem isOutdated_commit_iff (name : String) {c : Cache κ ν} {p : Policy κ ν} {now : Instant}
    {load : PendingLoad κ} {entries : List (κ × ν)} {k : κ}
    (hok : (c.commitWrites p now load entries).complete = true)
    (hk : k ∈ load.signature.key.explicit)
    (hi : c.ledger.isInvalidated (.key k) load.seq = true → c.ledger.isSuperseded k load.seq = true) :
    (c.commit name p now load (.ok entries)).cache.ledger.isOutdated (.key k)
        load.signature.includes = true
      ↔ c.ledger.isSuperseded k load.seq = true
        ∧ c.ledger.isOutdated (.key k) load.signature.includes = true := by
  cases hs : c.ledger.isSuperseded k load.seq with
  | true =>
      -- the commit passes over the key
      rw [(sameRecord_commit_of_superseded hs name p now (.ok entries)).isOutdated]
      simp
  | false =>
      have hinv : c.ledger.isInvalidated (.key k) load.seq = false := by
        rw [hs] at hi
        exact Bool.eq_false_iff.2 fun h => Bool.noConfusion (hi h)
      have ht : Target.key k ∈ load.signature.key.requested :=
        List.mem_append_left _ (List.mem_map_of_mem hk)
      rw [isOutdated_commit name hok ht hinv]
      simp

/-- Whether keys that are named one by one are outdated is a matter of each of them. -/
theorem isOutdated_explicit {key : Key κ} (h : key.asAlias = none) (c : Cache κ ν)
    (inc : Includes) : c.isOutdated key inc = true
      ↔ ∃ k ∈ key.explicit, c.ledger.isOutdated (.key k) inc = true := by
  cases key with
  | single k => simp [isOutdated, Key.asAlias, Key.explicit, resolve]
  | list ks => simp [isOutdated, Key.asAlias, Key.explicit, resolve]
  | byAlias a => exact absurd h (by simp [Key.asAlias])

end Cache

/-- Whether the step starts a load or ends one. -/
def Op.isLoading {κ ν : Type} [EntryKey κ] : Op κ ν → Bool
  | .start _ _ _ | .commit _ _ _ | .abort _ => true
  | _ => false

namespace Busy

variable {κ ν : Type} [EntryKey κ]

/-! ## The load and the steps between its start and its commit -/

/-- A load that has just started carries the last number drawn. -/
theorem seq_of_begun {b : Busy κ ν} {key : Key κ} {inc : Includes} {force : Bool}
    {load : PendingLoad κ}
    (h : (b.cache.start b.name b.policy key inc force).result = .begun load) :
    load.signature = ⟨key, inc⟩ ∧ load ∈ (b.step (.start key inc force)).pending
      ∧ load.seq = (b.step (.start key inc force)).ledger.seq := by
  rcases b.cache.start_cases b.name b.policy key inc force with ⟨_, hresult⟩ | ⟨_, hstart⟩
  · exact absurd h (hresult load)
  · rw [hstart] at h
    cases h
    unfold ledger
    rw [step_start, hstart]
    refine ⟨rfl, List.mem_append_right _ List.mem_cons_self, ?_⟩
    exact (Ledger.seq_startLoad b.ledger.draw _ _).symm

/-- Starts and ends of loads invalidate nothing; they overtake by what they touch. -/
theorem overtakes_of_isLoading {b : Busy κ ν} {op : Op κ ν} (h : op.isLoading = true) (k : κ)
    (n : Nat) : b.Overtakes (.key k) n op ↔ b.Touches k n op := by
  cases op with
  | start key inc force => simp
  | commit seq now answer => simp
  | abort seq => simp
  | _ => exact Bool.noConfusion h

theorem once_overtakes {b : Busy κ ν} {ops : List (Op κ ν)}
    (h : ∀ op ∈ ops, op.isLoading = true) (load : PendingLoad κ) (k : κ) :
    Once (fun b op => load ∈ b.pending ∧ b.Overtakes (.key k) load.seq op) b ops
      ↔ Once (fun b op => load ∈ b.pending ∧ b.Touches k load.seq op) b ops := by
  induction ops generalizing b with
  | nil => exact Iff.rfl
  | cons op ops ih =>
      have hop := h op List.mem_cons_self
      simp only [Once, overtakes_of_isLoading hop,
        ih fun op' hop' => h op' (List.mem_cons_of_mem op hop')]

/-- While loads only start and end, the keys superseded for the last load started are those touched
since, and nothing else is invalidated for it. -/
theorem isSuperseded_since_start {b : Busy κ ν} (hb : Sound b) {load : PendingLoad κ}
    (hseq : load.seq = b.ledger.seq) {ops : List (Op κ ν)} (hops : ∀ op ∈ ops, op.isLoading = true)
    (h : load ∈ (b.run ops).pending) (k : κ) :
    ((b.run ops).ledger.isSuperseded k load.seq = true
        ↔ Once (fun b op => load ∈ b.pending ∧ b.Touches k load.seq op) b ops)
      ∧ ((b.run ops).ledger.isInvalidated (.key k) load.seq = true →
        (b.run ops).ledger.isSuperseded k load.seq = true) := by
  have hblank : b.ledger.isInvalidated (.key k) load.seq = false :=
    hb.blank _ _ (Nat.le_of_eq hseq.symm)
  have hnone : ¬ b.ledger.isSuperseded k load.seq = true :=
    Bool.eq_false_iff.1 (hb.not_isSuperseded k (Nat.le_of_eq hseq.symm))
  have hsuper := (isSuperseded_run hb h k).trans (or_iff_right hnone)
  refine ⟨hsuper, ?_⟩
  rw [isInvalidated_run hb h, hblank, once_overtakes hops, hsuper]
  exact fun h => h.resolve_left Bool.false_ne_true

/-- The load whose commit succeeds under a number is the one that was started under it. -/
theorem complete_of_succeeds {b : Busy κ ν} (hb : Sound b) {load : PendingLoad κ}
    (hload : load ∈ b.pending) {ops : List (Op κ ν)} {now : Instant}
    {answer : Except Cause (List (κ × ν))}
    (h : (b.run ops).succeeds (.commit load.seq now answer) = true) :
    load ∈ (b.run ops).pending ∧ ∃ entries, answer = .ok entries
      ∧ ((b.run ops).cache.commitWrites (b.run ops).policy now load entries).complete = true := by
  unfold succeeds at h
  cases hp : (b.run ops).pending? load.seq with
  | none => simp [hp] at h
  | some load' =>
      obtain ⟨hmem, hseq⟩ := pending?_spec hp
      -- loads that have started since bear greater numbers
      have heq : load' = load := by
        rcases mem_pending_run hmem with hold | hlt
        · exact hb.eq_of_seq hold hload hseq
        · have := hb.drawn_pending hload
          omega
      subst heq
      refine ⟨hmem, ?_⟩
      cases answer with
      | error cause => simp [hp, Cache.commit] at h
      | ok entries =>
          refine ⟨entries, rfl, ?_⟩
          cases hc : ((b.run ops).cache.commitWrites (b.run ops).policy now load' entries).complete with
          | true => rfl
          | false => simp [hp, Cache.commit_ok, hc] at h

/--
**What a successful load leaves outdated.**

A load of keys named one by one starts, other loads start and end, and then it commits successfully.
After that the keys are outdated for its includes exactly if one of them was touched meanwhile by the
commit of a load that started later, and was outdated for the includes just before.
-/
theorem isOutdated_after_commit {b : Busy κ ν} (hb : Reachable b) {key : Key κ} {inc : Includes}
    {force : Bool} {load : PendingLoad κ} (hkey : key.asAlias = none)
    (hstart : (b.cache.start b.name b.policy key inc force).result = .begun load)
    {ops : List (Op κ ν)} (hops : ∀ op ∈ ops, op.isLoading = true) {now : Instant}
    {answer : Except Cause (List (κ × ν))}
    (hok : ((b.step (.start key inc force)).run ops).succeeds (.commit load.seq now answer) = true) :
    (((b.step (.start key inc force)).run ops).step (.commit load.seq now answer)).cache.isOutdated
        key inc = true
      ↔ ∃ k ∈ key.explicit,
        Once (fun b op => load ∈ b.pending ∧ b.Touches k load.seq op)
          (b.step (.start key inc force)) ops
        ∧ ((b.step (.start key inc force)).run ops).cache.isOutdated (.single k) inc = true := by
  obtain ⟨hsig, hbegun, hseq⟩ := seq_of_begun hstart
  have hsound : Sound (b.step (.start key inc force)) := sound_step (sound_reachable hb) _
  -- from here on it matters only that the load carries the last number drawn
  generalize b.step (.start key inc force) = b₀ at hok hbegun hseq hsound ⊢
  obtain ⟨hmem, entries, rfl, hcomplete⟩ := complete_of_succeeds hsound hbegun hok
  rw [Cache.isOutdated_explicit hkey, cache_step_commit (sound_run hsound ops) hmem]
  refine exists_congr fun k => and_congr_right fun hk => ?_
  obtain ⟨hsuper, hinv⟩ := isSuperseded_since_start hsound hseq hops hmem k
  have hiff := Cache.isOutdated_commit_iff (b₀.run ops).name hcomplete (by rw [hsig]; exact hk) hinv
  rw [hsig, hsuper] at hiff
  rw [hiff, Cache.isOutdated_single]

/-- A load with one include that commits before the later load without includes leaves its key
fresh. -/
theorem isOutdated_after_commit_first :
    let b : Busy String Nat := new "entries" {}
    let inc : Includes := Includes.ofList ["x"]
    let start : Op String Nat := .start (.single "a") inc false
    let ops : List (Op String Nat) := [.start (.single "a") Includes.none true]
    let load : PendingLoad String := ⟨⟨.single "a", inc⟩, 1, [.key "a"]⟩
    let commit : Op String Nat := .commit 1 ⟨0, 0⟩ (.ok [("a", 7)])
    Reachable b ∧ (b.cache.start b.name b.policy (.single "a") inc false).result = .begun load
      ∧ (∀ op ∈ ops, op.isLoading = true) ∧ ((b.step start).run ops).succeeds commit = true
      ∧ (((b.step start).run ops).step commit).cache.isOutdated (.single "a") inc = false := by
  intro b inc start ops load commit
  have hb : Reachable b := .init _ _
  have hstart : (b.cache.start b.name b.policy (.single "a") inc false).result = .begun load := rfl
  have hops : ∀ op ∈ ops, op.isLoading = true := by
    intro op hop
    rw [List.mem_singleton.1 hop]
    rfl
  have hok : ((b.step start).run ops).succeeds commit = true := by decide +kernel
  refine ⟨hb, hstart, hops, hok, ?_⟩
  rw [Bool.eq_false_iff]
  intro hout
  obtain ⟨k, _, htouch, _⟩ := (isOutdated_after_commit hb rfl hstart hops hok).1 hout
  rcases htouch with ⟨_, h⟩ | h
  · exact h
  · exact h

/-- A load with one include that commits after the later load without includes succeeds and leaves its
key outdated: the key is what the later load has made of it. -/
theorem outdated_after_successful_commit :
    let b : Busy String Nat := new "entries" {}
    let inc : Includes := Includes.ofList ["x"]
    let start : Op String Nat := .start (.single "a") inc false
    let ops : List (Op String Nat) :=
      [.start (.single "a") Includes.none true, .commit 2 ⟨0, 0⟩ (.ok [("a", 1)])]
    let load : PendingLoad String := ⟨⟨.single "a", inc⟩, 1, [.key "a"]⟩
    let commit : Op String Nat := .commit 1 ⟨0, 0⟩ (.ok [("a", 2)])
    (b.cache.start b.name b.policy (.single "a") inc false).result = .begun load
      ∧ (∀ op ∈ ops, op.isLoading = true) ∧ ((b.step start).run ops).succeeds commit = true
      ∧ (((b.step start).run ops).step commit).cache.isOutdated (.single "a") inc = true := by
  intro b inc start ops load commit
  refine ⟨rfl, ?_, ?_, ?_⟩
  · intro op hop
    rcases List.mem_cons.1 hop with rfl | hop
    · rfl
    · rw [List.mem_singleton.1 hop]
      rfl
  · decide +kernel
  · decide +kernel

end Busy

end Larder
