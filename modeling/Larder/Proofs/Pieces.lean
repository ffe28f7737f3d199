import Larder.Cache.Basic
import Larder.Proofs.Ledger

/-!
# What the building blocks of a cache do

Every operation of a cache removes some entries, writes some entries and marks some records, all
under one number. `Notes` says what that does to the books: for the loads that started before the
number, some keys count as written and some targets as invalidated, and nothing else happens. Each
building block has one such statement, and the operations only put them together.
-/

namespace Larder

theorem Target.key_mem_map {κ : Type} {k : κ} {ks : List κ} :
    Target.key k ∈ ks.map Target.key ↔ k ∈ ks := by
  simp

namespace Ledger

variable {κ : Type} [DecidableEq κ]

/-- The second ledger notes at `seq` that the keys in `W` were written and the targets in `T`
invalidated. Its records may be any. -/
structure Notes (l l' : Ledger κ) (W : κ → Prop) (T : Target κ → Prop) (seq : Nat) : Prop where
  /-- The same loads run. -/
  running : l'.running = l.running
  /-- The same loads can be joined. -/
  inFlight : l'.inFlight = l.inFlight
  /-- No number was drawn. -/
  counter : l'.seq = l.seq
  /-- What is written counts for the loads numbered below `seq`. -/
  superseded : ∀ k n, l'.isSuperseded k n = true ↔ l.isSuperseded k n = true ∨ (W k ∧ n < seq)
  /-- What is invalidated counts for the loads numbered below `seq`. -/
  invalidated : ∀ t n,
    l'.isInvalidated t n = true ↔ l.isInvalidated t n = true ∨ (T t ∧ n < seq)

namespace Notes

variable {l l' l'' : Ledger κ} {W W' : κ → Prop} {T T' : Target κ → Prop} {seq : Nat}

theorem of_sameBooks (h : l.SameBooks l') (seq : Nat) :
    l.Notes l' (fun _ => False) (fun _ => False) seq where
  running := h.running
  inFlight := h.inFlight
  counter := h.seq
  superseded k n := by simp [h.isSuperseded k n]
  invalidated t n := by simp [h.isInvalidated t n]

theorem trans (h : l.Notes l' W T seq) (h' : l'.Notes l'' W' T' seq) :
    l.Notes l'' (fun k => W k ∨ W' k) (fun t => T t ∨ T' t) seq where
  running := h'.running.trans h.running
  inFlight := h'.inFlight.trans h.inFlight
  counter := h'.counter.trans h.counter
  superseded k n := by rw [h'.superseded, h.superseded, or_assoc, ← or_and_right]
  invalidated t n := by rw [h'.invalidated, h.invalidated, or_assoc, ← or_and_right]

theorem congr (h : l.Notes l' W T seq) (hW : ∀ k, W k ↔ W' k) (hT : ∀ t, T t ↔ T' t) :
    l.Notes l' W' T' seq where
  running := h.running
  inFlight := h.inFlight
  counter := h.counter
  superseded k n := by rw [h.superseded, hW]
  invalidated t n := by rw [h.invalidated, hT]

theorem then_sameBooks (h : l.Notes l' W T seq) (h' : l'.SameBooks l'') : l.Notes l'' W T seq :=
  (h.trans (of_sameBooks h' seq)).congr (fun k => by simp) (fun t => by simp)

theorem after_sameBooks (h : l.SameBooks l') (h' : l'.Notes l'' W T seq) : l.Notes l'' W T seq :=
  ((of_sameBooks h seq).trans h').congr (fun k => by simp) (fun t => by simp)

/-- A load sees nothing of what is noted under its own number or an older one. -/
theorem isSuperseded_of_le (h : l.Notes l' W T seq) {n : Nat} (hn : seq ≤ n) (k : κ) :
    l'.isSuperseded k n = l.isSuperseded k n := by
  rw [Bool.eq_iff_iff, h.superseded]
  have : ¬ n < seq := by omega
  simp [this]

theorem isInvalidated_of_le (h : l.Notes l' W T seq) {n : Nat} (hn : seq ≤ n) (t : Target κ) :
    l'.isInvalidated t n = l.isInvalidated t n := by
  rw [Bool.eq_iff_iff, h.invalidated]
  have : ¬ n < seq := by omega
  simp [this]

end Notes

/-- The second ledger notes at `seq` that the keys were written, and nothing else. -/
def Stamps (l l' : Ledger κ) (ks : List κ) (seq : Nat) : Prop :=
  l.Notes l' (fun k => k ∈ ks) (fun t => t ∈ ks.map Target.key) seq

namespace Stamps

variable {l l' l'' : Ledger κ} {ks js : List κ} {seq : Nat}

theorem nil (h : l.SameBooks l') (seq : Nat) : l.Stamps l' [] seq :=
  (Notes.of_sameBooks h seq).congr (by simp) (by simp)

theorem append (h : l.Stamps l' ks seq) (h' : l'.Stamps l'' js seq) :
    l.Stamps l'' (ks ++ js) seq :=
  (Notes.trans h h').congr (by simp) (by simp)

theorem cons {k : κ} (h : l.Stamps l' [k] seq) (h' : l'.Stamps l'' ks seq) :
    l.Stamps l'' (k :: ks) seq :=
  h.append h'

end Stamps

/-- The books after an operation that notes something at `seq`: stamps may have been dropped
afterwards. -/
def Turns (l l' : Ledger κ) (W : κ → Prop) (T : Target κ → Prop) (seq : Nat) : Prop :=
  ∃ l₁, l.Notes l₁ W T seq ∧ (l' = l₁ ∨ l' = l₁.settle)

namespace Turns

variable {l l' : Ledger κ} {W W' : κ → Prop} {T T' : Target κ → Prop} {seq n : Nat}

theorem running (h : l.Turns l' W T seq) : l'.running = l.running := by
  obtain ⟨l₁, hn, rfl | rfl⟩ := h
  · exact hn.running
  · rw [running_settle]; exact hn.running

theorem inFlight (h : l.Turns l' W T seq) : l'.inFlight = l.inFlight := by
  obtain ⟨l₁, hn, rfl | rfl⟩ := h
  · exact hn.inFlight
  · rw [inFlight_settle]; exact hn.inFlight

theorem counter (h : l.Turns l' W T seq) : l'.seq = l.seq := by
  obtain ⟨l₁, hn, rfl | rfl⟩ := h
  · exact hn.counter
  · rw [seq_settle]; exact hn.counter

/-- For a load that runs, nothing noted is lost. -/
theorem superseded (h : l.Turns l' W T seq) (hn : n ∈ l.running) (k : κ) :
    l'.isSuperseded k n = true ↔ l.isSuperseded k n = true ∨ (W k ∧ n < seq) := by
  obtain ⟨l₁, hnotes, rfl | rfl⟩ := h
  · exact hnotes.superseded k n
  · rw [settle_of_running (hnotes.running ▸ hn)]; exact hnotes.superseded k n

theorem invalidated (h : l.Turns l' W T seq) (hn : n ∈ l.running) (t : Target κ) :
    l'.isInvalidated t n = true ↔ l.isInvalidated t n = true ∨ (T t ∧ n < seq) := by
  obtain ⟨l₁, hnotes, rfl | rfl⟩ := h
  · exact hnotes.invalidated t n
  · rw [settle_of_running (hnotes.running ▸ hn)]; exact hnotes.invalidated t n

/-- Whether or not a load runs, nothing is invalidated but by what is noted. -/
theorem of_invalidated (h : l.Turns l' W T seq) {t : Target κ}
    (hi : l'.isInvalidated t n = true) : l.isInvalidated t n = true ∨ (T t ∧ n < seq) := by
  obtain ⟨l₁, hnotes, rfl | rfl⟩ := h
  · exact (hnotes.invalidated t n).1 hi
  · exact (hnotes.invalidated t n).1 (isInvalidated_of_settle hi)

end Turns

theorem Notes.turns {l l' : Ledger κ} {W : κ → Prop} {T : Target κ → Prop} {seq : Nat}
    (h : l.Notes l' W T seq) : l.Turns l' W T seq := ⟨l', h, Or.inl rfl⟩

theorem Notes.turns_settle {l l' : Ledger κ} {W : κ → Prop} {T : Target κ → Prop} {seq : Nat}
    (h : l.Notes l' W T seq) : l.Turns l'.settle W T seq := ⟨l', h, Or.inr rfl⟩

theorem stamps_stamp (l : Ledger κ) (k : κ) (seq : Nat) : l.Stamps (l.stamp k seq) [k] seq where
  running := rfl
  inFlight := rfl
  counter := rfl
  superseded j n := by
    rw [isSuperseded_stamp]
    simp [@eq_comm κ k j]
  invalidated t n := by
    rw [isInvalidated_stamp]
    simp

theorem notes_markOutdated (l : Ledger κ) (t : Target κ) (seq : Nat) :
    l.Notes (l.markOutdated t seq) (fun _ => False) (fun u => u = t) seq where
  running := rfl
  inFlight := rfl
  counter := rfl
  superseded k n := by simp
  invalidated u n := by
    rw [isInvalidated_markOutdated]
    simp

theorem notes_markAllOutdated (l : Ledger κ) (seq : Nat) :
    l.Notes (l.markAllOutdated seq) (fun _ => False) (fun _ => True) seq where
  running := rfl
  inFlight := rfl
  counter := rfl
  superseded k n := by simp
  invalidated u n := by
    rw [isInvalidated_markAllOutdated]
    simp

theorem notes_stampClear (l : Ledger κ) (seq : Nat) :
    l.Notes (l.stampClear seq) (fun _ => True) (fun _ => True) seq where
  running := rfl
  inFlight := rfl
  counter := rfl
  superseded k n := by
    rw [isSuperseded_stampClear]
    simp
  invalidated t n := by
    rw [isInvalidated_stampClear]
    simp

end Ledger

namespace Cache

variable {κ ν : Type} [EntryKey κ]

/-! ## Reading -/

theorem isOutdated_single (c : Cache κ ν) (k : κ) (inc : Includes) :
    c.isOutdated (.single k) inc = c.ledger.isOutdated (.key k) inc := by
  simp [isOutdated, Key.asAlias, resolve]

/-! ## Removing -/

theorem stamps_remove (c : Cache κ ν) (k : κ) (seq : Nat) :
    c.ledger.Stamps (c.remove k seq).ledger [k] seq :=
  Ledger.Notes.after_sameBooks (Ledger.sameBooks_forget c.ledger k)
    (Ledger.stamps_stamp (c.ledger.forget k) k seq)

theorem removeAll_cons (c : Cache κ ν) (k : κ) (ks : List κ) (seq : Nat) :
    c.removeAll (k :: ks) seq = (c.remove k seq).removeAll ks seq := rfl

theorem stamps_removeAll (ks : List κ) (seq : Nat) (c : Cache κ ν) :
    c.ledger.Stamps (c.removeAll ks seq).ledger ks seq := by
  induction ks generalizing c with
  | nil => exact Ledger.Stamps.nil (Ledger.SameBooks.refl _) seq
  | cons k ks ih =>
    rw [removeAll_cons]
    exact (stamps_remove c k seq).cons (ih (c.remove k seq))

/-- Removing entries does not touch the others. -/
theorem data_removeAll {ks : List κ} {j : κ} (hj : j ∉ ks) (seq : Nat) (c : Cache κ ν) :
    (c.removeAll ks seq).data.get? j = c.data.get? j := by
  induction ks generalizing c with
  | nil => rfl
  | cons k ks ih =>
    rw [removeAll_cons, ih (fun h => hj (List.mem_cons_of_mem k h))]
    have hk : ¬ k = j := fun h => hj (h ▸ List.mem_cons_self)
    exact (Shelf.get?_erase c.data k j).trans (if_neg hk)

theorem meta?_removeAll {ks : List κ} {t : Target κ} (ht : t ∉ ks.map Target.key) (seq : Nat)
    (c : Cache κ ν) : (c.removeAll ks seq).ledger.meta? t = c.ledger.meta? t := by
  induction ks generalizing c with
  | nil => rfl
  | cons k ks ih =>
    have hk : ¬ Target.key k = t := fun h => ht (h ▸ List.mem_cons_self)
    rw [removeAll_cons, ih (fun h => ht (List.mem_cons_of_mem _ h))]
    exact (Ledger.meta?_forget c.ledger k t).trans (if_neg hk)

/-- Removing entries makes nothing fresh. -/
theorem fresh_of_removeAll {ks : List κ} {t : Target κ} {seq : Nat} {c : Cache κ ν}
    (h : (c.removeAll ks seq).ledger.Fresh t) : c.ledger.Fresh t := by
  induction ks generalizing c with
  | nil => exact h
  | cons k ks ih => exact ((Ledger.fresh_forget c.ledger k t).1 (ih h)).2

theorem removeEach_fst (ks : List κ) (seq : Nat) (c : Cache κ ν) :
    (removeEach seq ks c).1 = c.removeAll ks seq := by
  induction ks generalizing c with
  | nil => rfl
  | cons k ks ih => exact ih (c.remove k seq)

theorem not_isSuperseded_of_mem_stale {c : Cache κ ν} {incoming : List κ} {seq : Nat} {k : κ}
    (h : k ∈ c.stale incoming seq) : c.ledger.isSuperseded k seq = false := by
  have := (List.mem_filter.1 h).2
  rw [Bool.and_eq_true, Bool.not_eq_true'] at this
  exact by simpa using this.2

/-! ## Writing locally -/

/-- The keys of the entries that get written: all of them, or those before the first one whose merge
breaks down. -/
def writtenKeys (p : Policy κ ν) : List (κ × ν) → Shelf κ ν → List κ
  | [], _ => []
  | (k, v) :: rest, data =>
    match p.merge (data.get? k) v with
    | none => []
    | some merged => k :: writtenKeys p rest (data.insert k merged)

theorem eq_of_write? {c c' : Cache κ ν} {p : Policy κ ν} {k : κ} {v : ν}
    (h : c.write? p k v = some c') :
    ∃ merged, p.merge (c.data.get? k) v = some merged
      ∧ c' = { c with data := c.data.insert k merged } := by
  unfold write? at h
  obtain ⟨merged, hm, heq⟩ := Option.map_eq_some_iff.1 h
  exact ⟨merged, hm, heq.symm⟩

theorem writtenKeys_of_write? {c c' : Cache κ ν} {p : Policy κ ν} {k : κ} {v : ν}
    (h : c.write? p k v = some c') (rest : List (κ × ν)) :
    writtenKeys p ((k, v) :: rest) c.data = k :: writtenKeys p rest c'.data := by
  obtain ⟨merged, hm, rfl⟩ := eq_of_write? h
  rw [writtenKeys, hm]

theorem stamps_writeLocally (p : Policy κ ν) (now : Instant) (seq : Nat)
    (entries : List (κ × ν)) (c : Cache κ ν) :
    c.ledger.Stamps (writeLocally p now seq entries c).1.ledger
      (writtenKeys p entries c.data) seq := by
  fun_induction writeLocally p now seq entries c with
  | case1 c => exact Ledger.Stamps.nil (Ledger.SameBooks.refl _) seq
  | case2 k v rest c hw =>
      -- the merge breaks down here, and nothing after it is written
      have hm : p.merge (c.data.get? k) v = none := Option.map_eq_none_iff.1 hw
      rw [writtenKeys, hm]
      exact Ledger.Stamps.nil (Ledger.SameBooks.refl _) seq
  | case3 k v rest c c' hw ih =>
      rw [writtenKeys_of_write? hw]
      obtain ⟨merged, _, rfl⟩ := eq_of_write? hw
      refine Ledger.Stamps.cons ?_ ih
      exact Ledger.Notes.then_sameBooks (Ledger.stamps_stamp c.ledger k seq)
        (Ledger.sameBooks_markWritten _ _ now)

/-- Local writes make fresh what they write. -/
theorem fresh_of_writeLocally {p : Policy κ ν} {now : Instant} {seq : Nat} {t : Target κ}
    {entries : List (κ × ν)} {c : Cache κ ν}
    (h : (writeLocally p now seq entries c).1.ledger.Fresh t) :
    t ∈ (writtenKeys p entries c.data).map Target.key ∨ c.ledger.Fresh t := by
  fun_induction writeLocally p now seq entries c with
  | case1 c => exact Or.inr h
  | case2 k v rest c hw => exact Or.inr h
  | case3 k v rest c c' hw ih =>
      rw [writtenKeys_of_write? hw]
      obtain ⟨merged, _, rfl⟩ := eq_of_write? hw
      rcases ih h with hw | hf
      · exact Or.inl (List.mem_cons_of_mem _ hw)
      · rcases (Ledger.fresh_markWritten _ _ _ now).1 hf with rfl | hf
        · exact Or.inl List.mem_cons_self
        · exact Or.inr hf

/-! ## Writing the entries of a load -/

theorem stamps_stamp_markLoadedBy (l : Ledger κ) (k : κ) (inc : Includes) (now : Instant)
    (seq : Nat) : l.Stamps ((l.stamp k seq).markLoadedBy (.key k) inc now seq) [k] seq :=
  Ledger.Notes.then_sameBooks (Ledger.stamps_stamp l k seq)
    (Ledger.sameBooks_markLoadedBy _ _ inc now seq)

/-- A load stamps what it writes with its own number. -/
theorem stamps_writeLoaded (p : Policy κ ν) (now : Instant) (inc : Includes) (seq : Nat)
    (entries : List (κ × ν)) (c : Cache κ ν) :
    c.ledger.Stamps (writeLoaded p now inc seq entries c).cache.ledger
      (writeLoaded p now inc seq entries c).keys seq := by
  fun_induction writeLoaded p now inc seq entries c with
  | case1 c => exact Ledger.Stamps.nil (Ledger.SameBooks.refl _) seq
  | case2 k v rest c hk ih => exact ih
  | case3 k v rest c hk hw => exact Ledger.Stamps.nil (Ledger.SameBooks.refl _) seq
  | case4 k v rest c hk c' hw w ih =>
      obtain ⟨merged, _, rfl⟩ := eq_of_write? hw
      exact (stamps_stamp_markLoadedBy c.ledger k inc now seq).cons ih

/-- A load writes no key that was written since it started. -/
theorem not_isSuperseded_of_mem_writeLoaded {p : Policy κ ν} {now : Instant} {inc : Includes}
    {seq : Nat} {entries : List (κ × ν)} {c : Cache κ ν} {j : κ}
    (h : j ∈ (writeLoaded p now inc seq entries c).keys) :
    c.ledger.isSuperseded j seq = false := by
  fun_induction writeLoaded p now inc seq entries c with
  | case1 c => exact absurd h List.not_mem_nil
  | case2 k v rest c hk ih => exact ih h
  | case3 k v rest c hk hw => exact absurd h List.not_mem_nil
  | case4 k v rest c hk c' hw w ih =>
      obtain ⟨merged, _, rfl⟩ := eq_of_write? hw
      rcases List.mem_cons.1 h with rfl | h
      · simpa using hk
      · -- the stamp just set bears the load's own number and does not count for it
        have hstamp := stamps_stamp_markLoadedBy c.ledger k inc now seq
        rw [← hstamp.isSuperseded_of_le (Nat.le_refl seq)]
        exact ih h

theorem data_writeLoaded {p : Policy κ ν} {now : Instant} {inc : Includes} {seq : Nat}
    {entries : List (κ × ν)} {c : Cache κ ν} {j : κ}
    (h : j ∉ (writeLoaded p now inc seq entries c).keys) :
    (writeLoaded p now inc seq entries c).cache.data.get? j = c.data.get? j := by
  fun_induction writeLoaded p now inc seq entries c with
  | case1 c => rfl
  | case2 k v rest c hk ih => exact ih h
  | case3 k v rest c hk hw => rfl
  | case4 k v rest c hk c' hw w ih =>
      obtain ⟨merged, _, rfl⟩ := eq_of_write? hw
      have hkj : ¬ k = j := fun heq => h (heq ▸ List.mem_cons_self)
      refine (ih (fun hj => h (List.mem_cons_of_mem k hj))).trans ?_
      exact (Shelf.get?_insert c.data k j merged).trans (if_neg hkj)

theorem meta?_writeLoaded {p : Policy κ ν} {now : Instant} {inc : Includes} {seq : Nat}
    {entries : List (κ × ν)} {c : Cache κ ν} {t : Target κ}
    (h : t ∉ (writeLoaded p now inc seq entries c).keys.map Target.key) :
    (writeLoaded p now inc seq entries c).cache.ledger.meta? t = c.ledger.meta? t := by
  fun_induction writeLoaded p now inc seq entries c with
  | case1 c => rfl
  | case2 k v rest c hk ih => exact ih h
  | case3 k v rest c hk hw => rfl
  | case4 k v rest c hk c' hw w ih =>
      obtain ⟨merged, _, rfl⟩ := eq_of_write? hw
      have hkt : ¬ Target.key k = t := fun heq => h (heq ▸ List.mem_cons_self)
      refine (ih (fun ht => h (List.mem_cons_of_mem _ ht))).trans ?_
      exact Ledger.meta?_markLoadedBy_of_ne (c.ledger.stamp k seq) hkt inc now seq

/-- A load makes fresh only what it writes, and of that nothing that was invalidated since it
started. -/
theorem fresh_of_writeLoaded {p : Policy κ ν} {now : Instant} {inc : Includes} {seq : Nat}
    {entries : List (κ × ν)} {c : Cache κ ν} {t : Target κ}
    (h : (writeLoaded p now inc seq entries c).cache.ledger.Fresh t) :
    (t ∈ (writeLoaded p now inc seq entries c).keys.map Target.key
        ∧ c.ledger.isInvalidated t seq = false) ∨ c.ledger.Fresh t := by
  fun_induction writeLoaded p now inc seq entries c with
  | case1 c => exact Or.inr h
  | case2 k v rest c hk ih => exact ih h
  | case3 k v rest c hk hw => exact Or.inr h
  | case4 k v rest c hk c' hw w ih =>
      obtain ⟨merged, _, rfl⟩ := eq_of_write? hw
      rcases ih h with ⟨hw, hi⟩ | hf
      · -- what was not invalidated after this entry was not invalidated before it
        have hstamp := stamps_stamp_markLoadedBy c.ledger k inc now seq
        rw [← hstamp.isInvalidated_of_le (Nat.le_refl seq)]
        exact Or.inl ⟨List.mem_cons_of_mem _ hw, hi⟩
      · rcases (Ledger.fresh_markLoadedBy _ _ _ inc now seq).1 hf with ⟨rfl, hi⟩ | hf
        · rw [← (Ledger.stamps_stamp c.ledger k seq).isInvalidated_of_le (Nat.le_refl seq)]
          exact Or.inl ⟨List.mem_cons_self, hi⟩
        · exact Or.inr hf

/-! ## Marking -/

theorem notes_markEach (ks : List κ) (seq : Nat) (l : Ledger κ) :
    l.Notes (markEach seq ks l).1 (fun _ => False) (fun t => t ∈ ks.map Target.key) seq := by
  induction ks generalizing l with
  | nil => exact (Ledger.Notes.of_sameBooks (Ledger.SameBooks.refl l) seq).congr (by simp) (by simp)
  | cons k ks ih =>
    have h := (Ledger.notes_markOutdated l (.key k) seq).trans (ih (l.markOutdated (.key k) seq))
    exact h.congr (by simp) (by simp)

theorem fresh_of_markEach {ks : List κ} {seq : Nat} {l : Ledger κ} {t : Target κ}
    (h : (markEach seq ks l).1.Fresh t) : t ∉ ks.map Target.key ∧ l.Fresh t := by
  induction ks generalizing l with
  | nil => exact ⟨List.not_mem_nil, h⟩
  | cons k ks ih =>
    obtain ⟨hks, hf⟩ := ih h
    obtain ⟨hk, hf⟩ := (Ledger.fresh_markOutdated l (.key k) t seq).1 hf
    refine ⟨fun hmem => ?_, hf⟩
    rcases List.mem_cons.1 hmem with rfl | hmem
    · exact hk rfl
    · exact hks hmem

end Cache

/-- The targets a load of the key answers for by itself: the keys it names, or the alias. -/
def Key.requested {κ : Type} (key : Key κ) : List (Target κ) :=
  key.explicit.map Target.key ++ (key.asAlias.map Target.named).toList

namespace Cache

variable {κ ν : Type} [EntryKey κ]

/-- Record that a load answered for some targets. -/
def markAnswered (ts : List (Target κ)) (inc : Includes) (now : Instant) (seq : Nat)
    (l : Ledger κ) : Ledger κ :=
  ts.foldl (fun l t => l.markLoadedBy t inc now seq) l

theorem markAnswered_cons (t : Target κ) (ts : List (Target κ)) (inc : Includes) (now : Instant)
    (seq : Nat) (l : Ledger κ) :
    markAnswered (t :: ts) inc now seq l
      = markAnswered ts inc now seq (l.markLoadedBy t inc now seq) := rfl

/-- A key written since counts as invalidated anyway, so asking for both is asking once. -/
theorem markRequested_eq (now : Instant) (sig : Signature κ) (seq : Nat) (l : Ledger κ) :
    markRequested now sig seq l = markAnswered sig.key.requested sig.includes now seq l := by
  have hstep : (fun (l : Ledger κ) (k : κ) => if l.isSuperseded k seq then l
      else l.markLoadedBy (.key k) sig.includes now seq)
      = fun l k => l.markLoadedBy (.key k) sig.includes now seq := by
    funext l k
    by_cases h : l.isSuperseded k seq = true
    · rw [if_pos h, Ledger.markLoadedBy, if_pos (Ledger.isInvalidated_of_isSuperseded h)]
    · rw [if_neg h]
  unfold markRequested markAnswered Key.requested
  rw [hstep, List.foldl_append, List.foldl_map]
  cases sig.key.asAlias <;> rfl

theorem sameBooks_markAnswered (ts : List (Target κ)) (inc : Includes) (now : Instant) (seq : Nat)
    (l : Ledger κ) : l.SameBooks (markAnswered ts inc now seq l) :=
  Ledger.SameBooks.foldl (fun l t => Ledger.sameBooks_markLoadedBy l t inc now seq) ts l

/-- What was invalidated since the load started keeps its record. -/
theorem meta?_markAnswered {t : Target κ} {seq : Nat} {l : Ledger κ}
    (h : l.isInvalidated t seq = true) (ts : List (Target κ)) (inc : Includes) (now : Instant) :
    (markAnswered ts inc now seq l).meta? t = l.meta? t := by
  induction ts generalizing l with
  | nil => rfl
  | cons u ts ih =>
    -- marking changes records only, so the target counts as invalidated all along the fold
    have hbooks := Ledger.sameBooks_markLoadedBy l u inc now seq
    rw [markAnswered_cons, ih (by rw [hbooks.isInvalidated]; exact h)]
    by_cases hu : u = t
    · subst hu
      rw [Ledger.markLoadedBy, if_pos h]
    · exact Ledger.meta?_markLoadedBy_of_ne l hu inc now seq

theorem fresh_of_markAnswered {ts : List (Target κ)} {inc : Includes} {now : Instant} {seq : Nat}
    {l : Ledger κ} {t : Target κ} (h : (markAnswered ts inc now seq l).Fresh t) :
    (t ∈ ts ∧ l.isInvalidated t seq = false) ∨ l.Fresh t := by
  induction ts generalizing l with
  | nil => exact Or.inr h
  | cons u ts ih =>
    have hbooks := Ledger.sameBooks_markLoadedBy l u inc now seq
    rcases ih h with ⟨hmem, hi⟩ | hf
    · rw [hbooks.isInvalidated] at hi
      exact Or.inl ⟨List.mem_cons_of_mem u hmem, hi⟩
    · rcases (Ledger.fresh_markLoadedBy l u t inc now seq).1 hf with ⟨rfl, hi⟩ | hf
      · exact Or.inl ⟨List.mem_cons_self, hi⟩
      · exact Or.inr hf

/-- Record a failure against one requested key, unless it was written since the load started. -/
def markFailedUnless (f : Failure) (seq : Nat) (l : Ledger κ) (k : κ) : Ledger κ :=
  if l.isSuperseded k seq then l else l.markFailed (.key k) f

theorem sameBooks_markFailedUnless (f : Failure) (seq : Nat) (l : Ledger κ) (k : κ) :
    l.SameBooks (markFailedUnless f seq l k) := by
  unfold markFailedUnless; split <;> rfl

theorem markFailures_eq (f : Failure) (sig : Signature κ) (seq : Nat) (l : Ledger κ) :
    markFailures f sig seq l
      = (sig.key.asAlias.map Target.named).toList.foldl (fun l t => l.markFailed t f)
          (sig.key.explicit.foldl (markFailedUnless f seq) l) := by
  unfold markFailures
  cases sig.key.asAlias <;> rfl

theorem sameBooks_markFailures (f : Failure) (sig : Signature κ) (seq : Nat) (l : Ledger κ) :
    l.SameBooks (markFailures f sig seq l) := by
  rw [markFailures_eq]
  exact (Ledger.SameBooks.foldl (sameBooks_markFailedUnless f seq) sig.key.explicit l).trans
    (Ledger.SameBooks.foldl (fun l t => Ledger.sameBooks_markFailed l t f) _ _)

theorem fresh_markFailures (f : Failure) (sig : Signature κ) (seq : Nat) (l : Ledger κ)
    (t : Target κ) : (markFailures f sig seq l).Fresh t ↔ l.Fresh t := by
  have hkeys : ∀ (ks : List κ) (l : Ledger κ),
      (ks.foldl (markFailedUnless f seq) l).Fresh t ↔ l.Fresh t := by
    intro ks
    induction ks with
    | nil => intro l; exact Iff.rfl
    | cons k ks ih =>
        intro l
        refine (ih _).trans ?_
        unfold markFailedUnless
        split
        · exact Iff.rfl
        · exact Ledger.fresh_markFailed l (.key k) t f
  rw [markFailures_eq]
  cases sig.key.asAlias with
  | none => exact hkeys sig.key.explicit l
  | some a => exact (Ledger.fresh_markFailed _ (.named a) t f).trans (hkeys sig.key.explicit l)

/-- A failure is not recorded against a key that was written since the load started. -/
theorem meta?_markFailures {k : κ} {seq : Nat} {l : Ledger κ} (h : l.isSuperseded k seq = true)
    (f : Failure) (sig : Signature κ) :
    (markFailures f sig seq l).meta? (.key k) = l.meta? (.key k) := by
  have hkeys : ∀ (ks : List κ) (l : Ledger κ), l.isSuperseded k seq = true →
      (ks.foldl (markFailedUnless f seq) l).meta? (.key k) = l.meta? (.key k) := by
    intro ks
    induction ks with
    | nil => intro l _; rfl
    | cons j ks ih =>
        intro l hl
        have hbooks := sameBooks_markFailedUnless f seq l j
        rw [List.foldl_cons, ih _ (by rw [hbooks.isSuperseded]; exact hl)]
        unfold markFailedUnless
        by_cases hj : l.isSuperseded j seq = true
        · rw [if_pos hj]
        · -- a key that gets the failure was not written, so it is another one
          have hne : ¬ Target.key j = Target.key k := by
            intro heq
            cases heq
            exact hj hl
          rw [if_neg hj, Ledger.meta?_markFailed, if_neg hne]
  rw [markFailures_eq]
  cases sig.key.asAlias with
  | none => exact hkeys sig.key.explicit l h
  | some a =>
      -- the alias gets the failure in any case, and is no key
      refine (Ledger.meta?_markFailed _ (.named a) (.key k) f).trans ?_
      exact hkeys sig.key.explicit l h

end Cache

end Larder
