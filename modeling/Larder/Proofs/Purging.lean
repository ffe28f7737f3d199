import Larder.Proofs.Clientele
import Larder.Proofs.Eviction
import Larder.Proofs.Marking
import Larder.Proofs.Resolving

/-!
# What a purge evicts

A purge is the only operation that removes entries although nothing is wrong with them. It may take
those that nobody uses, that no load is fetching and that have been there long enough, and it has to
take all of them. What it may not take is an entry on somebody's screen: that a key is in use is looked
up through the aliases, as they resolve against the entries at that moment.

`Resource.Evicts` says all that a purge does. It holds of every resource, whatever was done with it
before; that the uses it goes by are those of the bindings is what `Clientele` is about.
-/

namespace Larder

theorem Ascending.nodup {κ : Type} [EntryKey κ] {ks : List κ} (h : Ascending ks) : ks.Nodup := by
  refine List.Pairwise.imp (fun {a b} hlt hab => ?_) h
  subst hab
  rw [Std.ReflOrd.compare_self] at hlt
  exact Ordering.noConfusion hlt

namespace Cache

variable {κ ν : Type} [EntryKey κ] {c : Cache κ ν} {tracked : List (Key κ)} {cutoff : Instant} {k : κ}

/-! ## What has expired -/

/-- An entry without a record has never been loaded, so its time is up. -/
theorem isExpired_iff :
    c.isExpired cutoff k = true ↔ c.ledger.isLoading (.key k) = false
      ∧ ∀ time, (c.ledger.metaOf (.key k)).loadedAt = some time → time.atMost cutoff = true := by
  unfold isExpired Ledger.isLoading Ledger.metaOf
  cases c.ledger.meta? (.key k) with
  | none =>
      refine iff_of_true rfl ⟨rfl, fun time htime => ?_⟩
      cases htime
  | some m =>
      dsimp only [Option.getD_some]
      rw [Bool.and_eq_true, Bool.not_eq_true']
      refine and_congr_right fun _ => ?_
      cases m.loadedAt with
      | none => exact iff_of_true rfl fun time htime => by cases htime
      | some time => exact ⟨fun h _ htime => Option.some.inj htime ▸ h, fun h => h time rfl⟩

theorem mem_expired :
    k ∈ c.expired tracked cutoff ↔ (c.data.get? k).isSome = true
      ∧ (∀ key ∈ tracked, k ∉ c.resolve key) ∧ c.isExpired cutoff k = true := by
  unfold expired
  rw [List.mem_filter, Shelf.mem_keys, Bool.and_eq_true, Bool.not_eq_true', ← Bool.not_eq_true,
    List.contains_iff_mem, List.mem_flatMap]
  simp only [not_exists, not_and]

theorem ascending_expired (c : Cache κ ν) (tracked : List (Key κ)) (cutoff : Instant) :
    Ascending (c.expired tracked cutoff) :=
  List.Pairwise.filter _ c.data.ascending

/-! ## What is left after a purge -/

/-- A key that no load is fetching leaves no record behind when it is removed. -/
theorem meta?_remove_of_idle (hidle : c.ledger.isLoading (.key k) = false) (j : κ) (seq : Nat) :
    (c.remove j seq).ledger.meta? (.key k) = if j = k then none else c.ledger.meta? (.key k) := by
  show (c.ledger.forget j).meta? (.key k) = _
  rw [Ledger.meta?_forget]
  by_cases hj : j = k
  · subst hj
    rw [if_pos rfl, if_pos rfl]
    unfold Ledger.isLoading at hidle
    cases hm : c.ledger.meta? (.key j) with
    | none => rfl
    | some m =>
        rw [hm] at hidle
        exact if_neg (Bool.eq_false_iff.1 hidle)
  · rw [if_neg hj, if_neg fun h => hj (Target.key.inj h)]

theorem meta?_removeAll_of_mem {ks : List κ} (hk : k ∈ ks)
    (hidle : c.ledger.isLoading (.key k) = false) (seq : Nat) :
    (c.removeAll ks seq).ledger.meta? (.key k) = none := by
  induction ks generalizing c with
  | nil => exact absurd hk List.not_mem_nil
  | cons j ks ih =>
      rw [removeAll_cons]
      have hrecord := meta?_remove_of_idle hidle j seq
      by_cases hin : k ∈ ks
      · refine ih hin ?_
        unfold Ledger.isLoading at hidle ⊢
        rw [hrecord]
        by_cases hj : j = k
        · rw [if_pos hj]
        · rw [if_neg hj]
          exact hidle
      · -- the first key was the one asked for, and nothing brings its record back
        obtain rfl : k = j := (List.mem_cons.1 hk).resolve_right hin
        rw [meta?_removeAll (mt Target.key_mem_map.1 hin), hrecord, if_pos rfl]

theorem data_purge (c : Cache κ ν) (tracked : List (Key κ)) (cutoff : Instant) (k : κ) :
    (c.purge tracked cutoff).cache.data.get? k
      = if k ∈ c.expired tracked cutoff then none else c.data.get? k := by
  by_cases he : c.expired tracked cutoff = []
  · rw [purge_of_nil he, he, if_neg List.not_mem_nil]
  · rw [cache_purge he]
    show (c.draw.removeAll (c.expired tracked cutoff) (c.ledger.seq + 1)).data.get? k = _
    by_cases hk : k ∈ c.expired tracked cutoff
    · rw [if_pos hk, data_removeAll_of_mem hk]
    · rw [if_neg hk, data_removeAll hk]
      rfl

/-- The record of what is evicted is gone, that of the alias for all is outdated, and all others are as
they were. -/
theorem meta?_purge (he : c.expired tracked cutoff ≠ []) (t : Target κ) :
    (c.purge tracked cutoff).cache.ledger.meta? t
      = if t ∈ (c.expired tracked cutoff).map Target.key then none
        else if .named Alias.all = t then (c.ledger.meta? t).map fun m => { m with outdated := true }
        else c.ledger.meta? t := by
  rw [ledger_purge he, Ledger.meta?_settle, Ledger.meta?_markOutdated]
  by_cases ht : t ∈ (c.expired tracked cutoff).map Target.key
  · obtain ⟨k, hk, rfl⟩ := List.mem_map.1 ht
    have hidle : c.ledger.isLoading (.key k) = false := (isExpired_iff.1 (mem_expired.1 hk).2.2).1
    rw [if_pos ht, if_neg Target.named_ne_key, meta?_removeAll_of_mem (c := c.draw) hk hidle]
  · rw [if_neg ht, meta?_removeAll ht]
    rfl

theorem events_purge (he : c.expired tracked cutoff ≠ []) :
    (c.purge tracked cutoff).events = [.deleted (c.expired tracked cutoff)] := by
  unfold purge
  split
  · rename_i heq
    exact absurd heq he
  · rfl

end Cache

namespace Resource

variable {κ ν : Type} [EntryKey κ]

/-- The eviction of what had expired by a cutoff, and nothing else. -/
structure Evicts (r : Resource κ ν) (cutoff : Instant) (evicted : List κ) (r' : Resource κ ν) : Prop where
  /-- The evicted keys are told in order. -/
  ascending : Ascending evicted
  /-- Each of them is told once. -/
  nodup : evicted.Nodup
  /-- Evicted is what is cached, what no key in use stands for, what is not being loaded, and what was
  not loaded or written after the cutoff. -/
  mem_iff : ∀ k, k ∈ evicted ↔ (r.cache.data.get? k).isSome = true
    ∧ (∀ key ∈ r.uses.tracked, k ∉ r.cache.resolve key)
    ∧ r.cache.ledger.isLoading (.key k) = false
    ∧ ∀ time, (r.cache.ledger.metaOf (.key k)).loadedAt = some time → time.atMost cutoff = true
  /-- Of what is evicted neither the value nor the record is left. -/
  gone : ∀ k ∈ evicted, r'.cache.data.get? k = none ∧ r'.cache.ledger.meta? (.key k) = none
  /-- Every other key has the value and the record it had. -/
  kept : ∀ k, k ∉ evicted → r'.cache.data.get? k = r.cache.data.get? k
    ∧ r'.cache.ledger.meta? (.key k) = r.cache.ledger.meta? (.key k)
  /-- So does every alias but the one for all. -/
  aliases : ∀ a, a ≠ Alias.all → r'.cache.ledger.meta? (.named a) = r.cache.ledger.meta? (.named a)
  /-- The loads under way, the uses and the registered aliases stay. -/
  frame : r'.cache.ledger.running = r.cache.ledger.running
    ∧ r'.cache.ledger.inFlight = r.cache.ledger.inFlight
    ∧ r'.cache.resolvers = r.cache.resolvers ∧ r'.uses = r.uses
  /-- An eviction of nothing leaves everything as it was. -/
  idle : evicted = [] → r' = r
  /-- Any other draws a number, is told in one event, and leaves the alias for all outdated. -/
  told : evicted ≠ [] → r'.cache.ledger.seq = r.cache.ledger.seq + 1
    ∧ r'.channel = r.channel.publish (.deleted evicted)
    ∧ r'.cache.ledger.meta? (.named Alias.all)
      = (r.cache.ledger.meta? (.named Alias.all)).map fun m => { m with outdated := true }

theorem purge_eq_of_nil {r : Resource κ ν} {cutoff : Instant}
    (he : r.cache.expired r.uses.tracked cutoff = []) : r.purge cutoff = (r, []) := by
  unfold purge apply Cache.purge
  rw [he]
  rfl

theorem evicts_purge (r : Resource κ ν) (cutoff : Instant) :
    r.Evicts cutoff (r.purge cutoff).2 (r.purge cutoff).1 := by
  have hresult : (r.purge cutoff).2 = r.cache.expired r.uses.tracked cutoff := Cache.result_purge
  have hasc := r.cache.ascending_expired r.uses.tracked cutoff
  have hmem : ∀ k, k ∈ r.cache.expired r.uses.tracked cutoff ↔ _ := fun k =>
    Cache.mem_expired.trans (and_congr_right fun _ => and_congr_right fun _ => Cache.isExpired_iff)
  rw [hresult]
  by_cases he : r.cache.expired r.uses.tracked cutoff = []
  · rw [purge_eq_of_nil he]
    refine ⟨hasc, hasc.nodup, hmem, ?_, fun _ _ => ⟨rfl, rfl⟩, fun _ _ => rfl, ⟨rfl, rfl, rfl, rfl⟩,
      fun _ => rfl, fun hne => absurd he hne⟩
    rw [he]
    exact fun k hk => absurd hk List.not_mem_nil
  · have hmeta := Cache.meta?_purge he
    have hturns := Cache.turns_purge he
    refine ⟨hasc, hasc.nodup, hmem, fun k hk => ⟨?_, ?_⟩, fun k hk => ⟨?_, ?_⟩, fun a ha => ?_,
      ⟨hturns.running, hturns.inFlight, Cache.resolvers_purge _ _ _, rfl⟩, fun h => absurd h he,
      fun _ => ⟨hturns.counter, ?_, ?_⟩⟩
    · exact (Cache.data_purge _ _ _ k).trans (if_pos hk)
    · exact (hmeta (.key k)).trans (if_pos (List.mem_map_of_mem hk))
    · exact (Cache.data_purge _ _ _ k).trans (if_neg hk)
    · refine (hmeta (.key k)).trans ?_
      rw [if_neg (mt Target.key_mem_map.1 hk), if_neg Target.named_ne_key]
    · refine (hmeta (.named a)).trans ?_
      rw [if_neg (Target.named_not_mem_map a _), if_neg fun h => ha (Target.named.inj h).symm]
    · show r.channel.publishAll (r.cache.purge r.uses.tracked cutoff).events = _
      rw [Cache.events_purge he]
      rfl
    · refine (hmeta (.named Alias.all)).trans ?_
      rw [if_neg (Target.named_not_mem_map _ _), if_pos rfl]

end Resource

namespace Clientele

variable {κ ν : Type} [EntryKey κ] {d : Clientele κ ν}

/-- The key that a live binding follows is in use. -/
theorem Sound.tracked_of_binding (h : Sound d) {b : Binding κ} (hb : b ∈ d.bindings) {key : Key κ}
    (hkey : b.key = some key) : key ∈ d.resource.uses.tracked := by
  rw [Uses.mem_tracked, h.accounts.isUsed_iff, h.count_eq]
  have hpos : 0 < d.bindings.countP fun b => b.key = some key :=
    List.countP_pos_iff.2 ⟨b, hb, decide_eq_true hkey⟩
  omega

end Clientele

namespace Resource

variable {κ ν : Type} [EntryKey κ]

/--
**A purge evicts exactly what is unused, idle and expired.**

Whatever state a resource is in, and whatever keys are in use, a purge of what is older than `ttl` does
what `Evicts` says, for the instant that lies `ttl` before now. If bindings and consumers brought the
resource there, by any steps, then nothing that a live binding reads is evicted: it keeps its value and
its record.
-/
theorem purgeOlder_evicts (r : Resource κ ν) {now cutoff : Instant} {ttl : Int}
    (hcutoff : now.minusMillis? ttl = some cutoff) :
    ∃ r' evicted, r.purgeOlder now ttl = some (r', evicted) ∧ r.Evicts cutoff evicted r'
      ∧ ∀ d : Clientele κ ν, Clientele.Reachable d → d.resource = r →
        ∀ b ∈ d.bindings, ∀ key, b.key = some key → ∀ k ∈ r.cache.resolve key,
          k ∉ evicted ∧ r'.cache.data.get? k = r.cache.data.get? k
            ∧ r'.cache.ledger.meta? (.key k) = r.cache.ledger.meta? (.key k) := by
  have hpurge : r.purgeOlder now ttl = some (r.purge cutoff) := by
    unfold purgeOlder
    rw [hcutoff]
    rfl
  have hevicts := r.evicts_purge cutoff
  refine ⟨(r.purge cutoff).1, (r.purge cutoff).2, hpurge, hevicts, ?_⟩
  rintro d hd rfl b hb key hkey k hk
  have htracked := (Clientele.sound_reachable hd).tracked_of_binding hb hkey
  have hout : k ∉ (d.resource.purge cutoff).2 := fun hin =>
    ((hevicts.mem_iff k).1 hin).2.1 key htracked hk
  exact ⟨hout, hevicts.kept k hout⟩

/-- Of four entries one is on a screen by an alias, one is being loaded and one is too young; the purge
evicts the other. -/
theorem purgeOlder_evicts_unused :
    let first : Key String := .byAlias ⟨"first", none⟩
    let entries : Resource String Nat := { name := "entries" }
    let registered : Resource String Nat :=
      { entries with cache := entries.cache.register "first" fun _ data => data.keys.take 1 }
    let old := (registered.setMany ⟨0, 0⟩ [("a", 1), ("b", 2), ("c", 3)]).1
    let filled := (old.setMany ⟨5, 0⟩ [("d", 4)]).1
    let loading := (filled.start (.single "c") Includes.none true).1
    let d := ({ resource := loading } : Clientele String Nat).step
      (.bind (some first) Includes.none {} 1)
    ∃ r', d.resource.purgeOlder ⟨10, 0⟩ 10000 = some (r', ["b"])
      ∧ d.resource.Evicts ⟨0, 0⟩ ["b"] r' ∧ r'.cache.data.get? "a" = some 1 := by
  intro first entries registered old filled loading d
  have hd : Clientele.Reachable d :=
    (Clientele.Reachable.init (r := loading) rfl).tail (.bind (some first) Includes.none {} 1)
      List.not_mem_nil
  have hcutoff : Instant.minusMillis? ⟨10, 0⟩ 10000 = some ⟨0, 0⟩ := by decide +kernel
  obtain ⟨r', evicted, hpurge, hevicts, hread⟩ := d.resource.purgeOlder_evicts hcutoff
  have hanswer : (d.resource.purgeOlder ⟨10, 0⟩ 10000).map Prod.snd = some ["b"] := by decide +kernel
  obtain rfl : evicted = ["b"] := by
    rw [hpurge] at hanswer
    exact Option.some.inj hanswer
  have hkept := hread d hd rfl _ (List.mem_singleton.2 rfl) first rfl "a" (by decide +kernel)
  exact ⟨r', hpurge, hevicts, hkept.2.1.trans (by decide +kernel)⟩

end Resource

end Larder
