import Larder.Proofs.Delivery
import Larder.Proofs.Purging
import Larder.Proofs.Stock

/-!
# Where a value comes from

A key is shielded from the loads that had started by some time once something was written under it
since: of those still under way, each passes the key over. `Shielded` says so of one state. It stays so
through every step, because a load that starts afterwards is not meant.

If nothing but loads writes a key, its value can be traced back. Either it was there all the time, or
there was a last load that brought one, and in every field that the policy takes over from the new
value the key holds what that load brought. Together the two say how old a value can be: in a state in
which a key is shielded, none that is brought to it later comes from an older load.
-/

namespace Larder

/-- A merged value has this field from the new value. -/
def Policy.Adopts {κ ν α : Type} (p : Policy κ ν) (field : ν → α) : Prop :=
  ∀ previous next merged, p.merge previous next = some merged → field merged = field next

/-- Of several values merged one after the other, the last decides what the field is. -/
theorem Policy.Adopts.combine {κ ν α : Type} {p : Policy κ ν} {field : ν → α} (hp : p.Adopts field)
    {values : List ν} {held result : Option ν} (h : p.combine held values = some result) :
    result.map field = (values.getLast?.map field).or (held.map field) := by
  induction values generalizing held with
  | nil => rw [← Option.some.inj h]; rfl
  | cons v values ih =>
      cases hm : p.merge held v with
      | none =>
          unfold Policy.combine at h
          rw [List.foldlM_cons, hm] at h
          cases h
      | some merged =>
          rw [Policy.combine_cons hm] at h
          rw [ih h, Option.map_some, hp _ _ _ hm]
          cases values with
          | nil => rfl
          | cons u values =>
              rw [List.getLast?_cons_cons, List.getLast?_cons]
              rfl

namespace Cache

variable {κ ν : Type} [EntryKey κ] {p : Policy κ ν} {k : κ}

theorem valuesOf_ne_nil {k : κ} {entries : List (κ × ν)} :
    valuesOf k entries ≠ [] ↔ k ∈ entries.map Prod.fst := by
  simp [valuesOf]

/-- Local writing leaves what it has not come to. -/
theorem data_writeLocally_of_not_written {now : Instant} {seq : Nat} {entries : List (κ × ν)}
    {c : Cache κ ν} (hk : k ∉ writtenKeys p entries c.data) :
    (writeLocally p now seq entries c).1.data.get? k = c.data.get? k := by
  fun_induction writeLocally p now seq entries c with
  | case1 c => rfl
  | case2 j v rest c hw => rfl -- the entry cannot be merged, and nothing more is written
  | case3 j v rest c c' hw ih =>
      rw [writtenKeys_of_write? hw, List.mem_cons, not_or] at hk
      obtain ⟨merged, _, rfl⟩ := eq_of_write? hw
      exact (ih hk.2).trans ((Shelf.get?_insert _ _ _ _).trans (if_neg (Ne.symm hk.1)))

/-- What a load brings to a key that it does not pass over is there after its commit, with the fields of
the last value that it has for the key. -/
theorem data_commit_adopts {α : Type} {field : ν → α} (hp : p.Total) (hfield : p.Adopts field)
    {c : Cache κ ν} {load : PendingLoad κ} (hs : c.ledger.isSuperseded k load.seq = false)
    {entries : List (κ × ν)} {v : ν} (hv : (valuesOf k entries).getLast? = some v) (name : String)
    (now : Instant) :
    ((c.commit name p now load (.ok entries)).cache.data.get? k).map field = some (field v) := by
  obtain ⟨reached, rest, hreach⟩ := c.exists_commitReaches p now load entries
  obtain rfl : rest = [] := hreach.complete.1 (complete_commitWrites hp)
  obtain rfl : entries = reached := by rw [hreach.split, List.append_nil]
  have hmem : k ∈ entries.map Prod.fst := by
    refine valuesOf_ne_nil.1 fun hnil => ?_
    rw [hnil] at hv
    cases hv
  rw [hfield.combine (data_commit_of_reached name hreach hs hmem), hv]
  rfl

end Cache

namespace Busy

variable {κ ν : Type} [EntryKey κ] {b : Busy κ ν} {k : κ}

/-! ## Shielding a key from older loads -/

/-- Of the loads under way, each has started after the number or passes the key over. -/
structure Shielded (b : Busy κ ν) (k : κ) (n : Nat) : Prop where
  /-- The number has been drawn. -/
  drawn : n ≤ b.ledger.seq
  /-- The loads that had started by then pass the key over. -/
  loads : ∀ load ∈ b.pending, b.ledger.isSuperseded k load.seq = true ∨ n < load.seq

theorem seq_le_run (b : Busy κ ν) (ops : List (Op κ ν)) : b.ledger.seq ≤ (b.run ops).ledger.seq := by
  induction ops generalizing b with
  | nil => exact Nat.le_refl _
  | cons op ops ih => exact Nat.le_trans (seq_le_step b op) (ih (b.step op))

/-- A step that touches the key shields it from all loads that have started before. -/
theorem shielded_of_touches (hb : Sound b) {n : Nat} (hn : n ≤ b.ledger.seq) {op : Op κ ν}
    (h : ∀ m ≤ n, b.Touches k m op) : (b.step op).Shielded k n where
  drawn := Nat.le_trans hn (seq_le_step b op)
  loads load hload := by
    rcases mem_pending_step hload with hold | hnew
    · by_cases hlt : n < load.seq
      · exact Or.inr hlt
      · -- a load that old is told of the step
        have htouch := h load.seq (Nat.le_of_not_lt hlt)
        exact Or.inl ((isSuperseded_step hb hload k).2 (Or.inr ⟨hold, htouch⟩))
    · exact Or.inr (Nat.lt_of_le_of_lt hn hnew)

theorem shielded_step (hb : Sound b) {n : Nat} (h : b.Shielded k n) (op : Op κ ν) :
    (b.step op).Shielded k n where
  drawn := Nat.le_trans h.drawn (seq_le_step b op)
  loads load hload := by
    rcases mem_pending_step hload with hold | hnew
    · exact (h.loads load hold).imp_left fun hs => (isSuperseded_step hb hload k).2 (Or.inl hs)
    · exact Or.inr (Nat.lt_of_le_of_lt h.drawn hnew)

theorem shielded_run (hb : Sound b) {n : Nat} (h : b.Shielded k n) (ops : List (Op κ ν)) :
    (b.run ops).Shielded k n := by
  induction ops generalizing b with
  | nil => exact h
  | cons op ops ih => exact ih (sound_step hb op) (shielded_step hb h op)

/-- A load that has come back with a value for the key shields it from the loads that are older: it has
written the key or was to pass it over, and then they are as well. -/
theorem shielded_of_brings (hb : Sound b) (hp : b.policy.Total) {load : PendingLoad κ} {now : Instant}
    {entries : List (κ × ν)} {op : Op κ ν} (h : b.Brings load now entries op)
    (hk : k ∈ entries.map Prod.fst) {n : Nat} (hn : n < load.seq) : (b.step op).Shielded k n := by
  obtain ⟨rfl, hload⟩ := h
  have hdrawn : n ≤ b.ledger.seq :=
    Nat.le_trans (Nat.le_of_lt hn) (hb.drawn_pending (pending?_spec hload).1)
  cases hs : b.ledger.isSuperseded k load.seq with
  | true =>
      -- what this load passes over, older ones do
      refine shielded_step hb ⟨hdrawn, fun l hl => ?_⟩ _
      by_cases hlt : n < l.seq
      · exact Or.inr hlt
      · exact Or.inl (Ledger.isSuperseded_mono (by omega) hs)
  | false =>
      -- the commit writes the key
      refine shielded_of_touches hb hdrawn fun m hm => ⟨load, hload, by omega, Or.inr ?_⟩
      exact (Cache.mem_commitWrites (Cache.complete_commitWrites hp)).2 ⟨hk, hs⟩

theorem shielded_of_once_brings (hb : Sound b) (hp : b.policy.Total) {load : PendingLoad κ} {n : Nat}
    (hn : n < load.seq) {ops : List (Op κ ν)}
    (h : Once (fun b op => ∃ now entries, b.Brings load now entries op ∧ k ∈ entries.map Prod.fst) b ops) :
    (b.run ops).Shielded k n := by
  induction ops generalizing b with
  | nil => exact absurd h not_false
  | cons op ops ih =>
      rcases h with ⟨now, entries, hbrings, hk⟩ | hlater
      · exact shielded_run (sound_step hb op) (shielded_of_brings hb hp hbrings hk hn) ops
      · have hpolicy : (b.step op).policy = b.policy := b.policy_step op
        exact ih (sound_step hb op) (hpolicy ▸ hp) hlater

/-! ## Tracing a value back -/

/-- The step writes or removes the key, and is not the commit of a load. -/
def Meddles (b : Busy κ ν) (k : κ) : Op κ ν → Prop
  | .commit _ _ _ => False
  | op => b.Touches k 0 op

/-- The step commits a load, which brings a value to the key: it does not pass the key over, and of the
values that it has for the key this is the last. -/
def Lands (b : Busy κ ν) (load : PendingLoad κ) (k : κ) (v : ν) (op : Op κ ν) : Prop :=
  ∃ now entries, b.Brings load now entries op ∧ b.ledger.isSuperseded k load.seq = false
    ∧ (valuesOf k entries).getLast? = some v

theorem Lands.mem_pending {load : PendingLoad κ} {v : ν} {op : Op κ ν} (h : b.Lands load k v op) :
    load ∈ b.pending := by
  obtain ⟨_, _, ⟨_, hload⟩, _⟩ := h
  exact (pending?_spec hload).1

theorem Lands.seq_eq {load : PendingLoad κ} {v : ν} {n : Nat} {now : Instant}
    {answer : Except Cause (List (κ × ν))} (h : b.Lands load k v (.commit n now answer)) :
    load.seq = n := by
  obtain ⟨_, _, ⟨hop, _⟩, _⟩ := h
  exact (Op.commit.inj hop).1.symm

/-- What is brought to a shielded key comes from a load that started later. -/
theorem Shielded.lt_of_lands {n : Nat} (h : b.Shielded k n) {load : PendingLoad κ} {v : ν} {op : Op κ ν}
    (hop : b.Lands load k v op) : n < load.seq := by
  have hload := hop.mem_pending
  obtain ⟨_, _, _, hs, _⟩ := hop
  refine (h.loads load hload).resolve_left fun hsup => ?_
  rw [hs] at hsup
  cases hsup

/-- A step that neither meddles with the key nor commits a load leaves its value. -/
theorem get?_step_of_not_meddles {op : Op κ ν} (hop : ∀ seq now answer, op ≠ .commit seq now answer)
    (h : ¬ b.Meddles k op) : (b.step op).cache.data.get? k = b.cache.data.get? k := by
  cases op with
  | setMany now entries =>
      refine (congrArg Stock.value (b.cache.stock_setMany b.policy now entries k)).trans ?_
      exact Cache.data_writeLocally_of_not_written (c := b.cache.draw) h
  | replace now entries =>
      obtain ⟨hdrop, hwrite⟩ := not_or.1 h
      refine (congrArg Stock.value (b.cache.stock_replace b.policy now entries k)).trans ?_
      refine (Cache.data_writeLocally_of_not_written (c := b.cache.replaceBase entries) hwrite).trans ?_
      exact Cache.data_removeAll hdrop _ b.cache.draw
  | update j f =>
      cases hj : b.cache.data.get? j with
      | none =>
          show (b.cache.update j f).cache.data.get? k = _
          rw [Cache.update_of_none hj]
      | some v =>
          have hne : ¬ j = k := by
            rintro rfl
            exact h ⟨rfl, Option.isSome_of_eq_some hj⟩
          show (b.cache.update j f).cache.data.get? k = _
          rw [Cache.data_update hj, Shelf.get?_insert, if_neg hne]
  | delete key =>
      refine (congrArg Stock.value (b.cache.stock_delete key k)).trans ?_
      exact Cache.data_removeAll h _ b.cache.draw
  | purge tracked cutoff =>
      exact (Cache.data_purge b.cache tracked cutoff k).trans (if_neg h)
  | clear => exact absurd trivial h
  | markOutdated key => rfl
  | markAllOutdated => rfl
  | register name r => rfl
  | start key inc force => rw [data_start]
  | commit seq now answer => exact absurd rfl (hop seq now answer)
  | abort seq =>
      cases hl : b.loose? seq with
      | none => rw [step_abort_of_none hl]
      | some load => rw [step_abort_of_some hl]; rfl

section

variable {α : Type} {field : ν → α}

/-- A commit leaves the value of a key, or removes it, or brings one. -/
theorem get?_step_commit (hp : b.policy.Total) (hfield : b.policy.Adopts field) {seq : Nat}
    {now : Instant} {answer : Except Cause (List (κ × ν))} {v : ν}
    (h : (b.step (.commit seq now answer)).cache.data.get? k = some v) :
    b.cache.data.get? k = some v
      ∨ ∃ load w, b.Lands load k w (.commit seq now answer) ∧ field v = field w := by
  cases hload : b.pending? seq with
  | none =>
      rw [step_commit_of_none hload] at h
      exact Or.inl h
  | some load =>
      obtain ⟨_, rfl⟩ := pending?_spec hload
      rw [step_commit_of_some hload] at h
      have h : (b.cache.commit b.name b.policy now load answer).cache.data.get? k = some v := h
      cases hs : b.ledger.isSuperseded k load.seq with
      | true =>
          rw [Cache.data_commit_of_superseded hs] at h
          exact Or.inl h
      | false =>
          cases answer with
          | error cause => exact Or.inl h
          | ok entries =>
              cases hlast : (valuesOf k entries).getLast? with
              | some w =>
                  have hadopts := Cache.data_commit_adopts hp hfield hs hlast b.name now
                  rw [h] at hadopts
                  exact Or.inr ⟨load, w, ⟨now, entries, ⟨rfl, hload⟩, hs, hlast⟩, Option.some.inj hadopts⟩
              | none =>
                  -- the answer lacks the key: one for everything removes it, any other leaves it
                  have hnil : valuesOf k entries = [] := List.getLast?_eq_none_iff.1 hlast
                  have hmem : k ∉ entries.map Prod.fst := fun hmem => Cache.valuesOf_ne_nil.2 hmem hnil
                  rw [Cache.data_commit_of_not_mem b.name b.policy now hmem hs] at h
                  by_cases hall : load.signature.key.isAll = true
                  · rw [if_pos hall] at h
                    cases h
                  · rw [if_neg hall] at h
                    exact Or.inl h

theorem get?_step (hp : b.policy.Total) (hfield : b.policy.Adopts field) {op : Op κ ν}
    (hop : ¬ b.Meddles k op) {v : ν} (h : (b.step op).cache.data.get? k = some v) :
    b.cache.data.get? k = some v ∨ ∃ load w, b.Lands load k w op ∧ field v = field w := by
  by_cases hcommit : ∃ seq now answer, op = .commit seq now answer
  · obtain ⟨seq, now, answer, rfl⟩ := hcommit
    exact get?_step_commit hp hfield h
  · rw [get?_step_of_not_meddles (fun seq now answer heq => hcommit ⟨seq, now, answer, heq⟩) hop] at h
    exact Or.inl h

/-- **A value that only loads have written was there all the time, or is the one that the last of them
has brought.** -/
theorem get?_run (hp : b.policy.Total) (hfield : b.policy.Adopts field) {ops : List (Op κ ν)}
    (hops : Along (fun b op => ¬ b.Meddles k op) b ops) {v : ν}
    (h : (b.run ops).cache.data.get? k = some v) :
    b.cache.data.get? k = some v
      ∨ ∃ before op after load w, ops = before ++ op :: after
        ∧ (b.run before).Lands load k w op
        ∧ ((b.run before).step op).cache.data.get? k = some v ∧ field v = field w := by
  induction ops generalizing b with
  | nil => exact Or.inl h
  | cons op ops ih =>
      have hpolicy : (b.step op).policy = b.policy := b.policy_step op
      -- the last load is among the later steps, or else it is the first step
      rcases ih (hpolicy ▸ hp) (hpolicy ▸ hfield) hops.2 h with
        hthere | ⟨before, op', after, load, w, rfl, hlands, hleft, hw⟩
      · refine (get?_step hp hfield hops.1 hthere).imp_right ?_
        rintro ⟨load, w, hlands, hw⟩
        exact ⟨[], op, ops, load, w, rfl, hlands, hthere, hw⟩
      · exact Or.inr ⟨op :: before, op', after, load, w, rfl, hlands, hleft, hw⟩

end

end Busy

end Larder
