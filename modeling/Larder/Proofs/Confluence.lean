import Larder.Proofs.Books
import Larder.Proofs.Entries

/-!
# Overlapping loads commit in any order

Several loads start one after the other, and then commit in some order. With values that overwrite
each other, a key ends with what the newest of the loads brought for it, whichever committed last: a
load that is overtaken at a key passes over it. A load of everything removes what it does not bring;
as the oldest of the loads it spares exactly what the others have written.

So the entries at the end are told by the loads and their answers alone. `settledValue` tells them,
and `Settling` is what holds in between: the entries are settled for the loads that have committed,
and each of the others passes over exactly what newer loads have brought.
-/

namespace Larder

/-- A new value takes the place of the cached one. -/
def Policy.Overwrites {κ ν : Type} (p : Policy κ ν) : Prop :=
  ∀ previous next, p.merge previous next = some next

theorem Policy.Overwrites.total {κ ν : Type} {p : Policy κ ν} (h : p.Overwrites) : p.Total := by
  intro previous next hnone
  rw [h previous next] at hnone
  cases hnone

/-- Whether the step asks for a load. -/
def Op.isStart {κ ν : Type} [EntryKey κ] : Op κ ν → Bool
  | .start _ _ _ => true
  | _ => false

variable {κ ν : Type} [EntryKey κ]

/-! ## What a key ends with -/

/-- The last value that an answer has for a key. A failure has none. -/
def lastValue (answer : Except Cause (List (κ × ν))) (k : κ) : Option ν :=
  match answer with
  | .error _ => none
  | .ok entries => (entries.reverse.find? fun e => e.1 = k).map Prod.snd

/-- The value of a key by the newest of some loads that brought one. The loads are given in the order
in which they started, and their answers by number. -/
def newestValue (answers : Nat → Except Cause (List (κ × ν))) (loads : List (PendingLoad κ)) (k : κ) :
    Option ν :=
  loads.reverse.findSome? fun load => lastValue (answers load.seq) k

/-- Whether one of some loads was for everything and succeeded. -/
def sweptBy (answers : Nat → Except Cause (List (κ × ν))) (loads : List (PendingLoad κ)) : Bool :=
  loads.any fun load => load.signature.key.isAll && (answers load.seq).isOk

/-- What a key holds once some loads have committed: what the newest of them brought, or what was there
before, unless a load for everything has removed it. -/
def settledValue (data : Shelf κ ν) (answers : Nat → Except Cause (List (κ × ν)))
    (loads : List (PendingLoad κ)) (k : κ) : Option ν :=
  (newestValue answers loads k).or (if sweptBy answers loads then none else data.get? k)

theorem lastValue_cons (k : κ) (v : ν) (rest : List (κ × ν)) (j : κ) :
    lastValue (.ok ((k, v) :: rest)) j
      = (lastValue (.ok rest) j).or (if k = j then some v else none) := by
  simp only [lastValue]
  rw [List.reverse_cons, List.find?_append]
  by_cases h : k = j <;> cases rest.reverse.find? (fun e => e.1 = j) <;> simp [h]

theorem isSome_lastValue {entries : List (κ × ν)} {k : κ} :
    (lastValue (.ok entries) k).isSome = true ↔ k ∈ entries.map Prod.fst := by
  simp [lastValue, List.find?_isSome]

theorem newestValue_append (answers : Nat → Except Cause (List (κ × ν)))
    (loads loads' : List (PendingLoad κ)) (k : κ) :
    newestValue answers (loads ++ loads') k
      = (newestValue answers loads' k).or (newestValue answers loads k) := by
  unfold newestValue
  rw [List.reverse_append, List.findSome?_append]

theorem newestValue_cons (answers : Nat → Except Cause (List (κ × ν))) (load : PendingLoad κ)
    (loads : List (PendingLoad κ)) (k : κ) :
    newestValue answers (load :: loads) k
      = (newestValue answers loads k).or (lastValue (answers load.seq) k) := by
  unfold newestValue
  rw [List.reverse_cons, List.findSome?_append, List.findSome?_singleton]

theorem isSome_newestValue {answers : Nat → Except Cause (List (κ × ν))}
    {loads : List (PendingLoad κ)} {k : κ} :
    (newestValue answers loads k).isSome = true
      ↔ ∃ load ∈ loads, (lastValue (answers load.seq) k).isSome = true := by
  simp [newestValue, List.findSome?_isSome_iff]

/-- What one more load changes, at a key for which no newer one has brought anything: it brings its own
value, or leaves or removes what the older ones brought. -/
theorem settledValue_insert (data : Shelf κ ν) {answers : Nat → Except Cause (List (κ × ν))}
    {older newer : List (PendingLoad κ)} {load : PendingLoad κ}
    (hfirst : load.signature.key.isAll = true → older = []) {k : κ}
    (hnewer : newestValue answers newer k = none) :
    settledValue data answers (older ++ load :: newer) k
      = (lastValue (answers load.seq) k).or
          (if load.signature.key.isAll && (answers load.seq).isOk then none
            else settledValue data answers (older ++ newer) k) := by
  have hswept : sweptBy answers (older ++ load :: newer)
      = ((load.signature.key.isAll && (answers load.seq).isOk) || sweptBy answers (older ++ newer)) := by
    simp only [sweptBy, List.any_append, List.any_cons]
    exact Bool.or_left_comm _ _ _
  unfold settledValue
  rw [hswept, newestValue_append, newestValue_append, newestValue_cons, hnewer, Option.none_or,
    Option.none_or, Option.or_assoc]
  congr 1
  cases hcase : load.signature.key.isAll && (answers load.seq).isOk with
  | false => simp
  | true =>
      obtain rfl := hfirst (Bool.and_eq_true_iff.1 hcase).1
      simp [newestValue]

/-- Where a newer load has brought something, an older one changes nothing. -/
theorem settledValue_overtaken (data : Shelf κ ν) {answers : Nat → Except Cause (List (κ × ν))}
    (older : List (PendingLoad κ)) {newer : List (PendingLoad κ)} (load : PendingLoad κ) {k : κ}
    (hnewer : (newestValue answers newer k).isSome = true) :
    settledValue data answers (older ++ load :: newer) k
      = settledValue data answers (older ++ newer) k := by
  obtain ⟨v, hv⟩ := Option.isSome_iff_exists.1 hnewer
  unfold settledValue
  rw [newestValue_append, newestValue_append, newestValue_cons, hv]
  rfl

namespace Cache

/-- With values that overwrite each other, a key that is not passed over gets the last value the answer
has for it. -/
theorem data_writeLoaded_of_overwrites {p : Policy κ ν} (hp : p.Overwrites) {now : Instant}
    {inc : Includes} {seq : Nat} {entries : List (κ × ν)} {c : Cache κ ν} {j : κ}
    (hj : c.ledger.isSuperseded j seq = false) :
    (writeLoaded p now inc seq entries c).cache.data.get? j
      = (lastValue (.ok entries) j).or (c.data.get? j) := by
  fun_induction writeLoaded p now inc seq entries c with
  | case1 c => rfl
  | case2 k v rest c hk ih =>
      have hne : ¬ k = j := by
        rintro rfl
        rw [hj] at hk
        exact Bool.noConfusion hk
      rw [ih hj, lastValue_cons, if_neg hne, Option.or_none]
  | case3 k v rest c hk hw => exact absurd (Option.map_eq_none_iff.1 hw) (hp.total _ v)
  | case4 k v rest c hk c' hw w ih =>
      obtain ⟨merged, hm, rfl⟩ := eq_of_write? hw
      obtain rfl : v = merged := Option.some.inj ((hp _ v).symm.trans hm)
      have hstamp := stamps_stamp_markLoadedBy c.ledger k inc now seq
      refine (ih ((hstamp.isSuperseded_of_le (Nat.le_refl seq) j).trans hj)).trans ?_
      rw [lastValue_cons, Option.or_assoc]
      congr 1
      refine (Shelf.get?_insert c.data k j v).trans ?_
      by_cases hkj : k = j <;> simp [hkj]

/-- **The commit of a load at one key**, with values that overwrite each other. -/
theorem data_commit_of_overwrites {c : Cache κ ν} {p : Policy κ ν} (hp : p.Overwrites) (name : String)
    (now : Instant) {load : PendingLoad κ} (answer : Except Cause (List (κ × ν))) {k : κ}
    (hs : c.ledger.isSuperseded k load.seq = false) :
    (c.commit name p now load answer).cache.data.get? k
      = (lastValue answer k).or
          (if load.signature.key.isAll && answer.isOk then none else c.data.get? k) := by
  cases answer with
  | error cause =>
      rw [show (Except.error cause : Except Cause (List (κ × ν))).isOk = false from rfl,
        Bool.and_false]
      rfl
  | ok entries =>
      rw [show (Except.ok entries : Except Cause (List (κ × ν))).isOk = true from rfl, Bool.and_true]
      by_cases hk : k ∈ entries.map Prod.fst
      · -- a value of the answer hides what was there
        obtain ⟨v, hv⟩ := Option.isSome_iff_exists.1 (isSome_lastValue.2 hk)
        rw [data_commit_ok]
        refine (data_writeLoaded_of_overwrites hp
          ((isSuperseded_commitBase c load entries k).trans hs)).trans ?_
        rw [hv]
        rfl
      · rw [Option.not_isSome_iff_eq_none.1 (mt isSome_lastValue.1 hk), Option.none_or]
        exact data_commit_of_not_mem name p now hk hs

end Cache

namespace Busy

/-! ## The starts -/

theorem data_run_starts {b : Busy κ ν} {starts : List (Op κ ν)}
    (hstarts : ∀ op ∈ starts, op.isStart = true) : (b.run starts).cache.data = b.cache.data := by
  induction starts generalizing b with
  | nil => rfl
  | cons op ops ih =>
      rw [run_cons, ih fun op' h => hstarts op' (List.mem_cons_of_mem op h)]
      have hop := hstarts op List.mem_cons_self
      cases op with
      | start key inc force => exact data_start b key inc force
      | _ => exact Bool.noConfusion hop

/-- Starts touch no key. -/
theorem not_touched_by_starts {b : Busy κ ν} {starts : List (Op κ ν)}
    (hstarts : ∀ op ∈ starts, op.isStart = true) (load : PendingLoad κ) (k : κ) :
    ¬ Once (fun b op => load ∈ b.pending ∧ b.Touches k load.seq op) b starts := by
  induction starts generalizing b with
  | nil => exact not_false
  | cons op ops ih =>
      rintro (⟨_, htouch⟩ | hrest)
      · have hop := hstarts op List.mem_cons_self
        cases op with
        | start key inc force => exact htouch
        | _ => exact Bool.noConfusion hop
      · exact ih (fun op' h => hstarts op' (List.mem_cons_of_mem op h)) hrest

/-- Where no load was under way, nothing is superseded for loads that have only started. -/
theorem not_isSuperseded_after_starts {b : Busy κ ν} (hb : Sound b) (hidle : b.pending = [])
    {starts : List (Op κ ν)} (hstarts : ∀ op ∈ starts, op.isStart = true) {load : PendingLoad κ}
    (hload : load ∈ (b.run starts).pending) (k : κ) :
    (b.run starts).ledger.isSuperseded k load.seq = false := by
  rw [Bool.eq_false_iff]
  intro hs
  rcases (isSuperseded_run hb hload k).1 hs with hbefore | htouch
  · rcases mem_pending_run hload with hmem | hlt
    · rw [hidle] at hmem
      exact List.not_mem_nil hmem
    · rw [hb.not_isSuperseded k (Nat.le_of_lt hlt)] at hbefore
      exact Bool.noConfusion hbefore
  · exact not_touched_by_starts hstarts load k htouch

/-! ## The commits -/

/-- The loads of a list that have committed, in the order in which they started. -/
def committed (loads : List (PendingLoad κ)) (done : List Nat) : List (PendingLoad κ) :=
  loads.filter fun l => l.seq ∈ done

omit [EntryKey κ] in
@[simp]
theorem committed_nil (loads : List (PendingLoad κ)) : committed loads [] = [] :=
  List.filter_eq_nil_iff.2 fun _ _ => by simp

omit [EntryKey κ] in
/-- One more load that has committed stands between the older and the newer ones. -/
theorem committed_cons {loads : List (PendingLoad κ)} {load : PendingLoad κ} {done : List Nat}
    (hord : loads.Pairwise fun l l' => l.seq < l'.seq) (hload : load ∈ loads)
    (hnot : load.seq ∉ done) :
    ∃ older newer, committed loads done = older ++ newer
      ∧ committed loads (load.seq :: done) = older ++ load :: newer
      ∧ (∀ l ∈ older, l.seq < load.seq) ∧ (∀ l ∈ newer, load.seq < l.seq)
      ∧ (older = [] ∨ load ∈ loads.tail) := by
  obtain ⟨pre, post, rfl⟩ := List.append_of_mem hload
  obtain ⟨_, hpost, hpre⟩ := List.pairwise_append.1 hord
  have holder : ∀ l ∈ pre, l.seq < load.seq := fun l hl => hpre l hl load List.mem_cons_self
  have hnewer : ∀ l ∈ post, load.seq < l.seq := (List.pairwise_cons.1 hpost).1
  have hsame : ∀ ls : List (PendingLoad κ), (∀ l ∈ ls, l.seq ≠ load.seq) →
      committed ls (load.seq :: done) = committed ls done := by
    intro ls hne
    refine List.filter_congr fun l hl => ?_
    simp [hne l hl]
  refine ⟨committed pre done, committed post done, ?_, ?_, ?_, ?_, ?_⟩
  · simp [committed, List.filter_append, hnot]
  · have hhere : committed (load :: post) (load.seq :: done)
        = load :: committed post (load.seq :: done) := by simp [committed]
    rw [← hsame pre fun l hl => Nat.ne_of_lt (holder l hl),
      ← hsame post fun l hl => (Nat.ne_of_lt (hnewer l hl)).symm, ← hhere]
    exact List.filter_append pre (load :: post)
  · exact fun l hl => holder l (List.mem_filter.1 hl).1
  · exact fun l hl => hnewer l (List.mem_filter.1 hl).1
  · cases pre with
    | nil => exact Or.inl rfl
    | cons first pre => exact Or.inr (by simp)

/-- Of some loads those with the numbers in `done` have committed and the others are under way. -/
structure Settling (data : Shelf κ ν) (answers : Nat → Except Cause (List (κ × ν)))
    (loads : List (PendingLoad κ)) (done : List Nat) (b : Busy κ ν) : Prop where
  /-- The books agree with the loads. -/
  sound : Sound b
  /-- Values overwrite each other. -/
  overwrites : b.policy.Overwrites
  /-- The others are under way. -/
  pending : b.pending = loads.filter fun l => l.seq ∉ done
  /-- The entries are settled for those that have committed. -/
  value : ∀ k, b.cache.data.get? k = settledValue data answers (committed loads done) k
  /-- The others pass over what newer ones of those have brought. -/
  passed : ∀ l ∈ b.pending, ∀ k, b.ledger.isSuperseded k l.seq = true
    ↔ ∃ m ∈ committed loads done, l.seq < m.seq ∧ (lastValue (answers m.seq) k).isSome = true

section

variable {data : Shelf κ ν} {answers : Nat → Except Cause (List (κ × ν))}
  {loads : List (PendingLoad κ)} {done : List Nat} {b : Busy κ ν}

theorem Settling.mem_pending (hb : Settling data answers loads done b) {l : PendingLoad κ} :
    l ∈ b.pending ↔ l ∈ loads ∧ l.seq ∉ done := by
  rw [hb.pending, List.mem_filter, decide_eq_true_eq]

/-- A load passes over a key exactly if a newer one has brought something for it. -/
theorem Settling.superseded_iff (hb : Settling data answers loads done b) {load : PendingLoad κ}
    (hload : load ∈ b.pending) {older newer : List (PendingLoad κ)}
    (hdone : committed loads done = older ++ newer) (holder : ∀ l ∈ older, l.seq < load.seq)
    (hnewer : ∀ l ∈ newer, load.seq < l.seq) (k : κ) :
    b.ledger.isSuperseded k load.seq = true ↔ (newestValue answers newer k).isSome = true := by
  rw [hb.passed load hload, isSome_newestValue, hdone]
  constructor
  · rintro ⟨m, hm, hlt, hv⟩
    rcases List.mem_append.1 hm with hm | hm
    · exact absurd hlt (Nat.lt_asymm (holder m hm))
    · exact ⟨m, hm, hv⟩
  · rintro ⟨m, hm, hv⟩
    exact ⟨m, List.mem_append_right older hm, hnewer m hm, hv⟩

/-- A load that commits brings what its answer has, and removes nothing that an older load under way
could have written: that would take a load for everything, which is the oldest. -/
theorem Settling.touches_iff (hb : Settling data answers loads done b)
    (hord : loads.Pairwise fun l l' => l.seq < l'.seq)
    (hall : ∀ l ∈ loads.tail, l.signature.key.isAll = false) {load : PendingLoad κ}
    (hload : load ∈ b.pending) (now : Instant) {l : PendingLoad κ} (hl : l ∈ b.pending) (k : κ) :
    b.Touches k l.seq (.commit load.seq now (answers load.seq)) ↔ l.seq < load.seq
      ∧ (lastValue (answers load.seq) k).isSome = true
      ∧ b.ledger.isSuperseded k load.seq = false := by
  cases hanswer : answers load.seq with
  | error cause => simp [Touches, lastValue]
  | ok entries =>
      simp only [Touches, hb.sound.pending?_eq hload, Option.some.injEq, exists_eq_left',
        Cache.mem_commitWrites (Cache.complete_commitWrites hb.overwrites.total), isSome_lastValue]
      constructor
      · rintro ⟨hlt, hdrop | hwrite⟩
        · -- the older load would have to come before the first
          obtain ⟨first, rest, rfl⟩ : ∃ first rest, loads = first :: rest := by
            cases hcase : loads with
            | nil =>
                have := (hb.mem_pending.1 hl).1
                rw [hcase] at this
                exact absurd this List.not_mem_nil
            | cons first rest => exact ⟨first, rest, rfl⟩
          have hhead := (List.pairwise_cons.1 hord).1
          have hisAll := (Cache.mem_commitDrops.1 hdrop).1
          rcases List.mem_cons.1 (hb.mem_pending.1 hload).1 with rfl | hrest
          · rcases List.mem_cons.1 (hb.mem_pending.1 hl).1 with rfl | hrest
            · exact absurd hlt (Nat.lt_irrefl _)
            · exact absurd hlt (Nat.lt_asymm (hhead l hrest))
          · rw [hall load hrest] at hisAll
            exact Bool.noConfusion hisAll
        · exact ⟨hlt, hwrite⟩
      · rintro ⟨hlt, hwrite⟩
        exact ⟨hlt, Or.inr hwrite⟩

/-- **One more load commits.** -/
theorem settling_step (hb : Settling data answers loads done b)
    (hord : loads.Pairwise fun l l' => l.seq < l'.seq)
    (hall : ∀ l ∈ loads.tail, l.signature.key.isAll = false) {load : PendingLoad κ}
    (hload : load ∈ b.pending) (now : Instant) :
    Settling data answers loads (load.seq :: done)
      (b.step (.commit load.seq now (answers load.seq))) := by
  obtain ⟨hmem, hnot⟩ := hb.mem_pending.1 hload
  obtain ⟨older, newer, hdone, hdone', holder, hnewer, hfirst⟩ := committed_cons hord hmem hnot
  have hsup := hb.superseded_iff hload hdone holder hnewer
  have hpending : (b.step (.commit load.seq now (answers load.seq))).pending
      = b.pending.filter fun l => ¬ l.seq = load.seq := by
    rw [step_commit_of_some (hb.sound.pending?_eq hload)]
  refine ⟨sound_step hb.sound _, ?_, ?_, ?_, ?_⟩
  · rw [policy_step]
    exact hb.overwrites
  · rw [hpending, hb.pending, List.filter_filter]
    refine List.filter_congr fun l _ => ?_
    simp
  · intro k
    rw [cache_step_commit hb.sound hload, hdone']
    cases hs : b.ledger.isSuperseded k load.seq with
    | true =>
        rw [Cache.data_commit_of_superseded hs, hb.value k, hdone,
          settledValue_overtaken data older load ((hsup k).1 hs)]
    | false =>
        have hnone : newestValue answers newer k = none := by
          rw [← Option.not_isSome_iff_eq_none, ← hsup k, hs]
          exact Bool.noConfusion
        have hsweep : load.signature.key.isAll = true → older = [] := by
          intro hisAll
          refine hfirst.resolve_right fun htail => ?_
          rw [hall load htail] at hisAll
          exact Bool.noConfusion hisAll
        rw [Cache.data_commit_of_overwrites hb.overwrites b.name now (answers load.seq) hs, hb.value k,
          hdone, settledValue_insert data hsweep hnone]
  · intro l hl k
    rw [isSuperseded_step hb.sound hl k]
    rw [hpending, mem_without] at hl
    rw [hb.touches_iff hord hall hload now hl.1]
    have hmore : ∀ m, m ∈ committed loads (load.seq :: done) ↔ m = load ∨ m ∈ committed loads done := by
      intro m
      rw [hdone, hdone', List.mem_append, List.mem_cons, List.mem_append]
      exact or_left_comm
    constructor
    · rintro (hs | ⟨_, hlt, hv, _⟩)
      · obtain ⟨m, hm, hrest⟩ := (hb.passed l hl.1 k).1 hs
        exact ⟨m, (hmore m).2 (Or.inr hm), hrest⟩
      · exact ⟨load, (hmore load).2 (Or.inl rfl), hlt, hv⟩
    · rintro ⟨m, hm, hlt, hv⟩
      rcases (hmore m).1 hm with rfl | hm
      · -- what the load has passed over itself, an older one passes over too
        cases hs : b.ledger.isSuperseded k m.seq with
        | true => exact Or.inl (Ledger.isSuperseded_mono (Nat.le_of_lt hlt) hs)
        | false => exact Or.inr ⟨hl.1, hlt, hv, rfl⟩
      · exact Or.inl ((hb.passed l hl.1 k).2 ⟨m, hm, hlt, hv⟩)

/-- The commits of some loads, each with its answer. -/
def commits (answers : Nat → Except Cause (List (κ × ν))) (order : List (Nat × Instant)) :
    List (Op κ ν) :=
  order.map fun c => .commit c.1 c.2 (answers c.1)

/-- **And any number of them, in any order.** -/
theorem settling_run (hb : Settling data answers loads done b)
    (hord : loads.Pairwise fun l l' => l.seq < l'.seq)
    (hall : ∀ l ∈ loads.tail, l.signature.key.isAll = false) {order : List (Nat × Instant)}
    (hnodup : (order.map Prod.fst).Nodup)
    (horder : ∀ n ∈ order.map Prod.fst, n ∉ done ∧ ∃ l ∈ loads, l.seq = n) :
    Settling data answers loads ((order.map Prod.fst).reverse ++ done)
      (b.run (commits answers order)) := by
  induction order generalizing b done with
  | nil => exact hb
  | cons c order ih =>
      obtain ⟨hfresh, hnodup⟩ := List.nodup_cons.1 hnodup
      obtain ⟨hnot, load, hmem, hseq⟩ := horder c.1 List.mem_cons_self
      have hstep := settling_step hb hord hall (hb.mem_pending.2 ⟨hmem, hseq ▸ hnot⟩) c.2
      rw [hseq] at hstep
      have hrest := ih hstep hnodup fun n hn => by
        obtain ⟨hn', hload⟩ := horder n (List.mem_cons_of_mem _ hn)
        refine ⟨fun hcons => ?_, hload⟩
        rcases List.mem_cons.1 hcons with rfl | hcons
        · exact hfresh hn
        · exact hn' hcons
      rw [List.map_cons, List.reverse_cons, List.append_assoc]
      exact hrest

end

/-- Where no load was under way, some starts settle nothing yet. -/
theorem settling_starts {b : Busy κ ν} (hb : Sound b) (hidle : b.pending = [])
    (hp : b.policy.Overwrites) {starts : List (Op κ ν)} (hstarts : ∀ op ∈ starts, op.isStart = true)
    (answers : Nat → Except Cause (List (κ × ν))) :
    Settling b.cache.data answers (b.run starts).pending [] (b.run starts) where
  sound := sound_run hb starts
  overwrites := by rw [policy_run]; exact hp
  pending := (List.filter_eq_self.2 fun _ _ => by simp).symm
  value k := by
    rw [data_run_starts hstarts]
    simp [settledValue, newestValue, sweptBy]
  passed l hl k := by
    rw [not_isSuperseded_after_starts hb hidle hstarts hl]
    simp

/-- Once all loads have committed, the entries are settled. -/
theorem data_run_commits {b : Busy κ ν} (hb : Sound b) (hidle : b.pending = [])
    (hp : b.policy.Overwrites) {starts : List (Op κ ν)} (hstarts : ∀ op ∈ starts, op.isStart = true)
    (hall : ∀ l ∈ (b.run starts).pending.tail, l.signature.key.isAll = false)
    (answers : Nat → Except Cause (List (κ × ν))) {order : List (Nat × Instant)}
    (horder : (order.map Prod.fst).Perm ((b.run starts).pending.map PendingLoad.seq)) (k : κ) :
    ((b.run starts).run (commits answers order)).cache.data.get? k
      = settledValue b.cache.data answers (b.run starts).pending k := by
  have hord := (sound_run hb starts).ordered
  have hnodup : ((b.run starts).pending.map PendingLoad.seq).Nodup :=
    List.pairwise_map.2 (hord.imp Nat.ne_of_lt)
  have hend := settling_run (settling_starts hb hidle hp hstarts answers) hord hall
    (horder.nodup_iff.2 hnodup) fun n hn => ⟨List.not_mem_nil, List.mem_map.1 (horder.mem_iff.1 hn)⟩
  have hdone : committed (b.run starts).pending ((order.map Prod.fst).reverse ++ [])
      = (b.run starts).pending := by
    refine List.filter_eq_self.2 fun l hl => ?_
    have hin := horder.mem_iff.2 (List.mem_map_of_mem hl)
    simpa using hin
  rw [hend.value k, hdone]

/-- **Overlapping loads are confluent.** Some loads start one after the other from a state without
loads under way, and only the first may be for everything. Whatever their answers, and in whichever
order and at whichever times they commit, the entries come out the same: each key holds the last value
for it in the answer of the newest load that has one, and without one what it held before, unless the
load for everything has succeeded. -/
theorem commits_confluent {b : Busy κ ν} (hb : Reachable b) (hidle : b.pending = [])
    (hp : b.policy.Overwrites) {starts : List (Op κ ν)} (hstarts : ∀ op ∈ starts, op.isStart = true)
    (hall : ∀ l ∈ (b.run starts).pending.tail, l.signature.key.isAll = false)
    (answers : Nat → Except Cause (List (κ × ν))) {order order' : List (Nat × Instant)}
    (horder : (order.map Prod.fst).Perm ((b.run starts).pending.map PendingLoad.seq))
    (horder' : (order'.map Prod.fst).Perm ((b.run starts).pending.map PendingLoad.seq)) :
    ((b.run starts).run (commits answers order)).cache.data
        = ((b.run starts).run (commits answers order')).cache.data
      ∧ ∀ k, ((b.run starts).run (commits answers order)).cache.data.get? k
        = settledValue b.cache.data answers (b.run starts).pending k := by
  have hvalue := data_run_commits (sound_reachable hb) hidle hp hstarts hall answers horder
  have hvalue' := data_run_commits (sound_reachable hb) hidle hp hstarts hall answers horder'
  exact ⟨Shelf.ext_get? fun k => (hvalue k).trans (hvalue' k).symm, hvalue⟩

/-- Four loads, of everything first: one brings a key twice, two bring the same key, one fails. They
commit from the oldest to the newest and the other way round. -/
theorem commits_confluent_four :
    let b : Busy String Nat := (new "entries" {}).step (.setMany ⟨0, 0⟩ [("a", 1), ("d", 4)])
    let starts : List (Op String Nat) :=
      [.start Key.all Includes.none true, .start (.single "a") Includes.none true,
        .start (.list ["b", "c"]) Includes.none true, .start (.single "c") Includes.none true]
    let answers : Nat → Except Cause (List (String × Nat))
      | 2 => .ok [("a", 10), ("b", 20), ("c", 30)]
      | 3 => .ok [("a", 11), ("a", 12)]
      | 4 => .ok [("b", 21)]
      | _ => .error (.plain "down")
    let order : List (Nat × Instant) := [(2, ⟨0, 0⟩), (3, ⟨0, 0⟩), (4, ⟨0, 0⟩), (5, ⟨0, 0⟩)]
    Reachable b ∧ b.pending = [] ∧ b.policy.Overwrites
      ∧ (b.run starts).pending.map PendingLoad.seq = [2, 3, 4, 5]
      ∧ ((b.run starts).run (commits answers order)).cache.data
        = ((b.run starts).run (commits answers order.reverse)).cache.data
      ∧ ["a", "b", "c", "d"].map ((b.run starts).run (commits answers order)).cache.data.get?
        = [some 12, some 21, some 30, none] := by
  intro b starts answers order
  have hb : Reachable b := .tail (.init "entries" {}) _
  have hp : b.policy.Overwrites := fun _ _ => rfl
  have hstarts : ∀ op ∈ starts, op.isStart = true := by decide
  have hseq : (b.run starts).pending.map PendingLoad.seq = [2, 3, 4, 5] := by decide +kernel
  have hall : ∀ l ∈ (b.run starts).pending.tail, l.signature.key.isAll = false := by decide +kernel
  have horder : (order.map Prod.fst).Perm ((b.run starts).pending.map PendingLoad.seq) := by
    rw [hseq]
    exact .refl _
  have horder' : (order.reverse.map Prod.fst).Perm ((b.run starts).pending.map PendingLoad.seq) := by
    rw [hseq]
    exact List.reverse_perm [2, 3, 4, 5]
  have hsame := commits_confluent hb rfl hp hstarts hall answers horder horder'
  refine ⟨hb, rfl, hp, hseq, hsame.1, ?_⟩
  rw [List.map_congr_left fun k _ => hsame.2 k]
  decide +kernel

end Busy

end Larder
