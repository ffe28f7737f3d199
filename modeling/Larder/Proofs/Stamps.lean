import Larder.Proofs.Changes

/-!
# Caches that differ in their stamps

Stamps are there for the loads that may still ask for them: those that run, and those that are yet to
start (`Ledger.Awake`). Two caches are *alike* to some loads if they differ in their tables of stamps
only, and even these say the same to the loads. Every operation of a ledger and every building block of
an operation of a cache leaves alike ones alike, as long as the load that it works for is one of the
loads. Dropping the stamps when no load runs does so too: to a load yet to start no stamp says anything,
for none has a number that is not drawn yet.
-/

namespace Larder

namespace Ledger

/-! ## Tables of numbers -/

/-- To the loads in `N` two tables of numbers say the same. -/
def Agree {α : Type} [DecidableEq α] (N : Nat → Prop) (t t' : Table α Nat) : Prop :=
  ∀ n, N n → ∀ a, later (t'.get? a) n = later (t.get? a) n

/-- A table of numbers says nothing to a load that starts after `s`. -/
def Below {α : Type} [DecidableEq α] (s : Nat) (t : Table α Nat) : Prop :=
  ∀ a n, s ≤ n → later (t.get? a) n = false

section

variable {α : Type} [DecidableEq α] {N : Nat → Prop} {t t' : Table α Nat} {s : Nat}

/-- What noting a number says to a load. -/
theorem later_noted (t : Table α Nat) (a b : α) (seq n : Nat) :
    later ((t.set a (max ((t.get? a).getD seq) seq)).get? b) n
      = (later (t.get? b) n || (decide (a = b) && decide (n < seq))) := by
  rw [Table.get?_set]
  by_cases h : a = b
  · subst h
    simp [later_max]
  · simp [h]

theorem Agree.noted (h : Agree N t t') (a : α) (seq : Nat) :
    Agree N (t.set a (max ((t.get? a).getD seq) seq)) (t'.set a (max ((t'.get? a).getD seq) seq)) := by
  intro n hn b
  rw [later_noted, later_noted, h n hn b]

theorem Below.noted (h : Below s t) (a : α) {seq : Nat} (hseq : seq ≤ s) :
    Below s (t.set a (max ((t.get? a).getD seq) seq)) := by
  intro b n hn
  rw [later_noted, h b n hn, decide_eq_false (Nat.not_lt.2 (Nat.le_trans hseq hn)), Bool.and_false]
  rfl

theorem Below.mono (h : Below s t) {s' : Nat} (hs : s ≤ s') : Below s' t :=
  fun a n hn => h a n (Nat.le_trans hs hn)

end

/-! ## Ledgers that differ in their stamps -/

variable {κ : Type}

/-- The ledger with other tables of stamps. -/
def withStamps (l : Ledger κ) (stamps : Table κ Nat) (invalidated : Table (Target κ) Nat) :
    Ledger κ :=
  { l with stamps := stamps, invalidated := invalidated }

/-- The number belongs to a load that may still ask: one that runs or one that is yet to start. -/
def Awake (l : Ledger κ) (n : Nat) : Prop := n ∈ l.running ∨ l.seq < n

/-- Settling leaves no stamp unless a load runs. -/
theorem tables_settle (l : Ledger κ) (h : l.settle.running = []) :
    l.settle.stamps = .empty ∧ l.settle.invalidated = .empty := by
  rw [running_settle] at h
  have hsettle : l.settle = l.withStamps .empty .empty := if_pos (List.isEmpty_iff.2 h)
  rw [hsettle]
  exact ⟨rfl, rfl⟩

variable [DecidableEq κ]

/-- The ledgers differ in their stamps only, and not in what they say to the loads in `N`. The second
has noted no number that is not drawn yet. -/
structure Alike (N : Nat → Prop) (l l' : Ledger κ) : Prop where
  /-- Everything but the stamps is the same. -/
  books : l' = l.withStamps l'.stamps l'.invalidated
  /-- Keys are stamped alike. -/
  stamps : Agree N l.stamps l'.stamps
  /-- Targets are invalidated alike. -/
  invalidated : Agree N l.invalidated l'.invalidated
  /-- No stamp is from the future. -/
  stampsBelow : Below l.seq l'.stamps
  /-- And no invalidation. -/
  invalidatedBelow : Below l.seq l'.invalidated

namespace Alike

variable {N : Nat → Prop} {l l' : Ledger κ}

theorem metas (h : Alike N l l') : l'.metas = l.metas := by rw [h.books]; rfl

theorem seq (h : Alike N l l') : l'.seq = l.seq := by rw [h.books]; rfl

theorem isSuperseded (h : Alike N l l') {n : Nat} (hn : N n) (k : κ) :
    l'.isSuperseded k n = l.isSuperseded k n := by
  have hcleared : l'.clearedAt = l.clearedAt := by rw [h.books]; rfl
  unfold Ledger.isSuperseded
  rw [hcleared, h.stamps n hn]

theorem isInvalidated (h : Alike N l l') {n : Nat} (hn : N n) (t : Target κ) :
    l'.isInvalidated t n = l.isInvalidated t n := by
  have hcleared : l'.clearedAt = l.clearedAt := by rw [h.books]; rfl
  have hall : l'.allOutdatedAt = l.allOutdatedAt := by rw [h.books]; rfl
  unfold Ledger.isInvalidated
  rw [hall, h.invalidated n hn]
  cases t with
  | key k => dsimp only; rw [h.isSuperseded hn]
  | named a => dsimp only; rw [hcleared]

theorem mono (h : Alike N l l') {N' : Nat → Prop} (hN : ∀ n, N' n → N n) : Alike N' l l' :=
  { h with
    stamps := fun n hn => h.stamps n (hN n hn)
    invalidated := fun n hn => h.invalidated n (hN n hn) }

/-- An operation that passes the stamps by, and reads none. -/
theorem map (h : Alike N l l') (f : Ledger κ → Ledger κ)
    (hf : ∀ st inv, f (l.withStamps st inv) = (f l).withStamps st inv)
    (hstamps : (f l).stamps = l.stamps) (hinvalidated : (f l).invalidated = l.invalidated)
    (hseq : l.seq ≤ (f l).seq) : Alike N (f l) (f l') := by
  have hl' : f l' = (f l).withStamps l'.stamps l'.invalidated := by
    rw [← hf]
    exact congrArg f h.books
  rw [hl']
  exact
    { books := rfl
      stamps := hstamps ▸ h.stamps
      invalidated := hinvalidated ▸ h.invalidated
      stampsBelow := h.stampsBelow.mono hseq
      invalidatedBelow := h.invalidatedBelow.mono hseq }

/-- An operation on records that reads no stamps. -/
theorem mapRecords (h : Alike N l l') (f : Ledger κ → Ledger κ) (hbooks : l.SameBooks (f l))
    (hf : ∀ st inv, f (l.withStamps st inv) = (f l).withStamps st inv) : Alike N (f l) (f l') :=
  h.map f hf (by rw [hbooks]) (by rw [hbooks]) (Nat.le_of_eq hbooks.seq.symm)

theorem stamp (h : Alike N l l') (k : κ) {seq : Nat} (hseq : seq ≤ l.seq) :
    Alike N (l.stamp k seq) (l'.stamp k seq) where
  books := by rw [h.books]; rfl
  stamps := h.stamps.noted k seq
  invalidated := h.invalidated
  stampsBelow := h.stampsBelow.noted k hseq
  invalidatedBelow := h.invalidatedBelow

theorem markOutdated (h : Alike N l l') (t : Target κ) {seq : Nat} (hseq : seq ≤ l.seq) :
    Alike N (l.markOutdated t seq) (l'.markOutdated t seq) where
  books := by rw [h.books]; rfl
  stamps := h.stamps
  invalidated := h.invalidated.noted t seq
  stampsBelow := h.stampsBelow
  invalidatedBelow := h.invalidatedBelow.noted t hseq

/-- **Dropping the stamps when no load runs changes no answer to a load that may still ask.** -/
theorem settle (h : Alike N l l') (hN : ∀ n, l.Awake n → N n) : Alike l.Awake l.settle l' := by
  by_cases hempty : l.running.isEmpty = true
  · have hsettle : l.settle = l.withStamps .empty .empty := if_pos hempty
    -- only loads that are yet to start may ask, and no stamp says anything to them
    have hlater : ∀ n, l.Awake n → l.seq ≤ n := by
      rintro n (hrun | hlt)
      · rw [List.isEmpty_iff.1 hempty] at hrun
        exact absurd hrun List.not_mem_nil
      · exact Nat.le_of_lt hlt
    rw [hsettle]
    exact
      { books := h.books
        stamps := fun n hn k => h.stampsBelow k n (hlater n hn)
        invalidated := fun n hn t => h.invalidatedBelow t n (hlater n hn)
        stampsBelow := h.stampsBelow
        invalidatedBelow := h.invalidatedBelow }
  · have hsettle : l.settle = l := if_neg hempty
    rw [hsettle]
    exact h.mono hN

theorem draw (h : Alike N l l') : Alike N l.draw l'.draw :=
  h.map Ledger.draw (fun _ _ => rfl) rfl rfl (Nat.le_succ _)

theorem stampClear (h : Alike N l l') (seq : Nat) : Alike N (l.stampClear seq) (l'.stampClear seq) :=
  h.map (·.stampClear seq) (fun _ _ => rfl) rfl rfl (Nat.le_refl _)

theorem markAllOutdated (h : Alike N l l') (seq : Nat) :
    Alike N (l.markAllOutdated seq) (l'.markAllOutdated seq) :=
  h.map (·.markAllOutdated seq) (fun _ _ => rfl) rfl rfl (Nat.le_refl _)

theorem forgetAll (h : Alike N l l') : Alike N l.forgetAll l'.forgetAll :=
  h.mapRecords Ledger.forgetAll (sameBooks_forgetAll l) fun _ _ => rfl

theorem forget (h : Alike N l l') (k : κ) : Alike N (l.forget k) (l'.forget k) := by
  refine h.mapRecords (·.forget k) (sameBooks_forget l k) fun st inv => ?_
  have hmeta : (l.withStamps st inv).meta? (.key k) = l.meta? (.key k) := rfl
  unfold Ledger.forget
  rw [hmeta]
  cases l.meta? (.key k) with
  | none => rfl
  | some m => dsimp only; split <;> rfl

theorem markWritten (h : Alike N l l') (t : Target κ) (now : Instant) :
    Alike N (l.markWritten t now) (l'.markWritten t now) :=
  h.mapRecords (·.markWritten t now) (sameBooks_markWritten l t now) fun _ _ => rfl

theorem markFailed (h : Alike N l l') (t : Target κ) (f : Failure) :
    Alike N (l.markFailed t f) (l'.markFailed t f) :=
  h.mapRecords (·.markFailed t f) (sameBooks_markFailed l t f) fun _ _ => rfl

/-- A load that may still ask marks the same in both. -/
theorem markLoadedBy (h : Alike N l l') {seq : Nat} (hseq : N seq) (t : Target κ) (inc : Includes)
    (now : Instant) : Alike N (l.markLoadedBy t inc now seq) (l'.markLoadedBy t inc now seq) := by
  unfold Ledger.markLoadedBy
  rw [h.isInvalidated hseq]
  split
  · exact h
  · exact h.mapRecords (·.markLoaded t inc now) rfl fun _ _ => rfl

/-- A fold of operations under which ledgers stay alike. -/
theorem foldl {α : Type} {f : Ledger κ → α → Ledger κ}
    (hf : ∀ {l l' : Ledger κ}, Alike N l l' → ∀ a, Alike N (f l a) (f l' a)) (as : List α)
    (h : Alike N l l') : Alike N (as.foldl f l) (as.foldl f l') := by
  induction as generalizing l l' with
  | nil => exact h
  | cons a as ih => exact ih (hf h a)

theorem beginAt (h : Alike N l l') (t : Target κ) : Alike N (l.beginAt t) (l'.beginAt t) :=
  h.mapRecords (·.beginAt t) (sameBooks_beginAt l t) fun _ _ => rfl

theorem endAt (h : Alike N l l') (t : Target κ) : Alike N (l.endAt t) (l'.endAt t) :=
  h.mapRecords (·.endAt t) (sameBooks_endAt l t) fun _ _ => rfl

theorem startLoad (h : Alike N l l') (s : Signature κ) (load : InFlight κ) :
    Alike N (l.startLoad s load) (l'.startLoad s load) :=
  (foldl (fun h t => h.beginAt t) load.targets h).map
    (fun l => { l with running := l.running ++ [load.seq], inFlight := l.inFlight.set s load })
    (fun _ _ => rfl) rfl rfl (Nat.le_refl _)

theorem finishLoad (h : Alike N l l') (s : Signature κ) (seq : Nat) (ts : List (Target κ)) :
    Alike N (l.finishLoad s seq ts) (l'.finishLoad s seq ts) := by
  have hclose : Alike N (l.closeLoad s seq) (l'.closeLoad s seq) :=
    h.map (·.closeLoad s seq) (fun _ _ => rfl) rfl rfl (Nat.le_refl _)
  have hrunning : l'.running = l.running := by rw [h.books]; rfl
  rw [finishLoad_eq, finishLoad_eq, hrunning]
  split
  · exact foldl (fun h t => h.endAt t) ts hclose
  · exact hclose

/-- In both a request finds the same load to join, provided that the loads to join may still ask. -/
theorem joinable? (h : Alike N l l') (s : Signature κ)
    (hN : ∀ load, l.inFlight.get? s = some load → N load.seq) :
    l'.joinable? s = l.joinable? s := by
  have hin : l'.inFlight = l.inFlight := by rw [h.books]; rfl
  unfold Ledger.joinable?
  rw [hin]
  cases hs : l.inFlight.get? s with
  | none => rfl
  | some load =>
      have hsame : (fun t => l'.isInvalidated t load.seq) = fun t => l.isInvalidated t load.seq :=
        funext fun t => h.isInvalidated (hN load hs) t
      dsimp only
      rw [hsame]

end Alike

end Ledger

namespace Cache

variable {κ ν : Type} [EntryKey κ]

/-! ## Caches that differ in their stamps -/

/-- The caches differ in their stamps only, and not in what they say to the loads in `N`. -/
structure Alike (N : Nat → Prop) (c c' : Cache κ ν) : Prop where
  /-- Everything but the ledger is the same. -/
  rest : c' = { c with ledger := c'.ledger }
  /-- The ledgers are alike. -/
  ledger : c.ledger.Alike N c'.ledger

theorem seq_remove (c : Cache κ ν) (k : κ) (seq : Nat) :
    (c.remove k seq).ledger.seq = c.ledger.seq :=
  (Ledger.sameBooks_forget c.ledger k).seq

theorem seq_removeAll (ks : List κ) (seq : Nat) (c : Cache κ ν) :
    (c.removeAll ks seq).ledger.seq = c.ledger.seq :=
  (stamps_removeAll ks seq c).counter

namespace Alike

variable {N : Nat → Prop} {c c' : Cache κ ν}

theorem data (h : c.Alike N c') : c'.data = c.data := by rw [h.rest]

theorem resolve (h : c.Alike N c') (key : Key κ) : c'.resolve key = c.resolve key := by
  rw [h.rest]; rfl

theorem targets (h : c.Alike N c') (key : Key κ) : c'.targets key = c.targets key := by
  rw [h.rest]; rfl

theorem rejection (h : c.Alike N c') (name : String) (p : Policy κ ν) (key : Key κ) :
    c'.rejection name p key = c.rejection name p key := by
  rw [h.rest]; rfl

theorem isOutdated (h : c.Alike N c') (key : Key κ) (inc : Includes) :
    c'.isOutdated key inc = c.isOutdated key inc := by
  unfold Cache.isOutdated Ledger.isOutdated Ledger.meta?
  rw [h.resolve, h.ledger.metas]

theorem stale (h : c.Alike N c') (incoming : List κ) {seq : Nat} (hseq : N seq) :
    c'.stale incoming seq = c.stale incoming seq := by
  have hsame : (fun k => !incoming.contains k && !c'.ledger.isSuperseded k seq)
      = fun k => !incoming.contains k && !c.ledger.isSuperseded k seq :=
    funext fun k => by rw [h.ledger.isSuperseded hseq]
  unfold Cache.stale
  rw [h.data, hsame]

theorem expired (h : c.Alike N c') (tracked : List (Key κ)) (cutoff : Instant) :
    c'.expired tracked cutoff = c.expired tracked cutoff := by
  have hresolve : c'.resolve = c.resolve := funext h.resolve
  unfold Cache.expired isExpired Ledger.meta?
  rw [h.data, h.ledger.metas, hresolve]

theorem withLedger (h : c.Alike N c') (f : Ledger κ → Ledger κ)
    (hf : (f c.ledger).Alike N (f c'.ledger)) : (c.withLedger f).Alike N (c'.withLedger f) where
  rest := by rw [h.rest]; rfl
  ledger := hf

theorem draw (h : c.Alike N c') : c.draw.Alike N c'.draw := h.withLedger Ledger.draw h.ledger.draw

/-- The same change to the entries of both. -/
theorem withData (h : c.Alike N c') (data : Shelf κ ν) :
    Alike N { c with data := data } { c' with data := data } where
  rest := by rw [h.rest]
  ledger := h.ledger

theorem remove (h : c.Alike N c') (k : κ) {seq : Nat} (hseq : seq ≤ c.ledger.seq) :
    (c.remove k seq).Alike N (c'.remove k seq) where
  rest := by rw [h.rest]; rfl
  ledger := (h.ledger.forget k).stamp k (by rw [(Ledger.sameBooks_forget _ k).seq]; exact hseq)

theorem removeAll (h : c.Alike N c') (ks : List κ) {seq : Nat} (hseq : seq ≤ c.ledger.seq) :
    (c.removeAll ks seq).Alike N (c'.removeAll ks seq) := by
  induction ks generalizing c c' with
  | nil => exact h
  | cons k ks ih => exact ih (h.remove k hseq) (by rw [seq_remove]; exact hseq)

theorem removeEach (h : c.Alike N c') (ks : List κ) {seq : Nat} (hseq : seq ≤ c.ledger.seq) :
    (Cache.removeEach seq ks c').2 = (Cache.removeEach seq ks c).2 := by
  induction ks generalizing c c' with
  | nil => rfl
  | cons k ks ih =>
      have hrest := ih (h.remove k hseq) (by rw [seq_remove]; exact hseq)
      unfold Cache.removeEach
      dsimp only
      rw [h.data, hrest]

/-- Local writing writes the same to both. -/
theorem writeLocally (h : c.Alike N c') (p : Policy κ ν) (now : Instant) (entries : List (κ × ν))
    {seq : Nat} (hseq : seq ≤ c.ledger.seq) :
    (Cache.writeLocally p now seq entries c).1.Alike N (Cache.writeLocally p now seq entries c').1
      ∧ (Cache.writeLocally p now seq entries c').2 = (Cache.writeLocally p now seq entries c).2 := by
  induction entries generalizing c c' with
  | nil => exact ⟨h, rfl⟩
  | cons e rest ih =>
      obtain ⟨k, v⟩ := e
      unfold Cache.writeLocally Cache.write?
      rw [h.data]
      cases p.merge (c.data.get? k) v with
      | none => exact ⟨h, rfl⟩
      | some merged =>
          refine ih ?_ hseq
          exact (h.withData (c.data.insert k merged)).withLedger _
            ((h.ledger.stamp k hseq).markWritten (.key k) now)

/-- A load that may still ask writes the same to both. -/
theorem writeLoaded (h : c.Alike N c') (p : Policy κ ν) (now : Instant) (inc : Includes)
    (entries : List (κ × ν)) {seq : Nat} (hN : N seq) (hseq : seq ≤ c.ledger.seq) :
    (Cache.writeLoaded p now inc seq entries c).cache.Alike N
        (Cache.writeLoaded p now inc seq entries c').cache
      ∧ (Cache.writeLoaded p now inc seq entries c').keys
        = (Cache.writeLoaded p now inc seq entries c).keys
      ∧ (Cache.writeLoaded p now inc seq entries c').complete
        = (Cache.writeLoaded p now inc seq entries c).complete := by
  induction entries generalizing c c' with
  | nil => exact ⟨h, rfl, rfl⟩
  | cons e rest ih =>
      obtain ⟨k, v⟩ := e
      unfold Cache.writeLoaded Cache.write?
      rw [h.ledger.isSuperseded hN, h.data]
      by_cases hk : c.ledger.isSuperseded k seq = true
      · rw [if_pos hk, if_pos hk]
        exact ih h hseq
      · rw [if_neg hk, if_neg hk]
        cases p.merge (c.data.get? k) v with
        | none => exact ⟨h, rfl, rfl⟩
        | some merged =>
            have hnext := (h.withData (c.data.insert k merged)).withLedger
              (fun l => (l.stamp k seq).markLoadedBy (.key k) inc now seq)
              ((h.ledger.stamp k hseq).markLoadedBy hN (.key k) inc now)
            have hbound : ((c.ledger.stamp k seq).markLoadedBy (.key k) inc now seq).seq
                = c.ledger.seq := (Ledger.sameBooks_markLoadedBy _ _ _ _ _).seq
            obtain ⟨hcache, hkeys, hcomplete⟩ := ih hnext (Nat.le_trans hseq (Nat.le_of_eq hbound.symm))
            exact ⟨hcache, congrArg (k :: ·) hkeys, hcomplete⟩

end Alike

section

variable {N : Nat → Prop} {l l' : Ledger κ}

theorem alike_markAlias (h : l.Alike N l') (key : Key κ) {seq : Nat} (hseq : seq ≤ l.seq) :
    (markAlias l key seq).Alike N (markAlias l' key seq) := by
  unfold markAlias
  cases key.asAlias with
  | none => exact h
  | some a => exact h.markOutdated (.named a) hseq

theorem alike_markEach (h : l.Alike N l') (ks : List κ) {seq : Nat} (hseq : seq ≤ l.seq) :
    (markEach seq ks l).1.Alike N (markEach seq ks l').1
      ∧ (markEach seq ks l').2 = (markEach seq ks l).2 := by
  induction ks generalizing l l' with
  | nil => exact ⟨h, rfl⟩
  | cons k ks ih =>
      obtain ⟨hledger, hmarked⟩ := ih (h.markOutdated (.key k) hseq) hseq
      have hfresh : l'.isFreshRecord (.key k) = l.isFreshRecord (.key k) := by
        unfold Ledger.isFreshRecord Ledger.meta?
        rw [h.metas]
      refine ⟨hledger, ?_⟩
      unfold markEach
      dsimp only
      rw [hfresh, hmarked]

theorem alike_markRequested (h : l.Alike N l') (now : Instant) (sig : Signature κ) {seq : Nat}
    (hN : N seq) : (markRequested now sig seq l).Alike N (markRequested now sig seq l') := by
  rw [markRequested_eq, markRequested_eq]
  exact h.foldl (fun h t => h.markLoadedBy hN t sig.includes now) _

theorem alike_markFailures (h : l.Alike N l') (f : Failure) (sig : Signature κ) {seq : Nat}
    (hN : N seq) : (markFailures f sig seq l).Alike N (markFailures f sig seq l') := by
  have hkey : ∀ {l l' : Ledger κ}, l.Alike N l' → ∀ k,
      (markFailedUnless f seq l k).Alike N (markFailedUnless f seq l' k) := by
    intro l l' h k
    unfold markFailedUnless
    rw [h.isSuperseded hN]
    split
    · exact h
    · exact h.markFailed (.key k) f
  rw [markFailures_eq, markFailures_eq]
  exact (h.foldl hkey _).foldl (fun h t => h.markFailed t f) _

end

end Cache

end Larder
