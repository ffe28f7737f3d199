import Larder.Proofs.Leases
import Mathlib.Data.List.Perm.Basic
import Mathlib.Logic.ExistsUnique

/-!
# Uses are neither lost nor freed twice

Purging spares what somebody uses. A use that is never freed keeps entries for good, and one that is
freed too early lets go of entries that are still looked at; neither makes any noise. So the table of
uses has to agree at all times with those who use something: the live bindings, each for the key it
follows, and the consumers that registered a use of their own and have not freed it.

The clientele of a resource is any number of them, in any order of steps. A consumer may name the wrong
key when it frees, and may free more than once; all it may not do is free an id that it did not obtain.
-/

namespace Larder

/-- What is done with one binding. -/
inductive Deed (κ : Type) where
  /-- Follow a key; the id is at hand in case a use is registered. -/
  | setKey (key : Option (Key κ)) (id : UseId)
  | setIncludes (inc : Includes)
  | setOptions (options : BindingOptions)
  | poll (result : Option LoadResult) (request : Nat)
  | retry (request : Nat)
  | reload (request : Nat)
  /-- Waiting for the data begins. -/
  | beginResolve
  /-- Waiting for the data ends with a result. -/
  | endResolve (result : LoadResult)

/-- The binding and the resource after a deed. -/
def Binding.perform {κ ν : Type} [EntryKey κ] (b : Binding κ) (r : Resource κ ν) :
    Deed κ → Binding κ × Resource κ ν
  | .setKey key id => b.setKey r key id
  | .setIncludes inc => (b.setIncludes inc, r)
  | .setOptions options => (b.setOptions options, r)
  | .poll result request =>
    let move := (b.poll r result request).1
    (move.binding, move.resource)
  | .retry request =>
    let move := b.retry r request
    (move.binding, move.resource)
  | .reload request =>
    let move := b.reload r request
    (move.binding, move.resource)
  | .beginResolve =>
    let (b, r, _) := b.beginResolve r
    (b, r)
  | .endResolve result => ((b.endResolve r result).1, r)

/-- The id that a deed takes, if it takes one. -/
def Deed.id? {κ : Type} : Deed κ → Option UseId
  | .setKey _ id => some id
  | _ => none

/-- Of all deeds, only following a key touches the use. -/
theorem Binding.perform_cases {κ ν : Type} [EntryKey κ] (b : Binding κ) (r : Resource κ ν)
    (deed : Deed κ) :
    (∃ key id, deed = .setKey key id)
      ∨ deed.id? = none ∧ b.Keeps r (b.perform r deed).1 (b.perform r deed).2 := by
  cases deed with
  | setKey key id => exact .inl ⟨key, id, rfl⟩
  | setIncludes inc => exact .inr ⟨rfl, b.keeps_setIncludes r inc⟩
  | setOptions options => exact .inr ⟨rfl, rfl, rfl, rfl⟩
  | poll result request => exact .inr ⟨rfl, b.keeps_poll r result request⟩
  | retry request =>
      have hask := { b with exception := none }.keeps_ask r false request
      exact .inr ⟨rfl, hask.key, hask.use, hask.uses⟩
  | reload request =>
      have hask := { b with exception := none }.keeps_ask r true request
      exact .inr ⟨rfl, hask.key, hask.use, hask.uses⟩
  | beginResolve => exact .inr ⟨rfl, b.keeps_beginResolve r⟩
  | endResolve result => exact .inr ⟨rfl, b.keeps_endResolve r result⟩

/-- A resource with all who use it. -/
structure Clientele (κ ν : Type) [EntryKey κ] where
  /-- The resource. -/
  resource : Resource κ ν
  /-- The live bindings. -/
  bindings : List (Binding κ) := []
  /-- The uses that consumers registered themselves, freed or not. -/
  obtained : List (Lease κ) := []
  /-- What consumers called to free: the key they named and the id. -/
  freed : List (Lease κ) := []
  /-- The ids handed out. -/
  issued : List UseId := []

namespace Clientele

variable {κ ν : Type} [EntryKey κ]

/-- One step of a consumer. -/
inductive Op (κ ν : Type) [EntryKey κ] where
  /-- Make a binding. -/
  | bind (key : Option (Key κ)) (inc : Includes) (options : BindingOptions) (id : UseId)
  /-- Do something with the binding in a place. -/
  | act (i : Nat) (deed : Deed κ)
  /-- Let go of the binding in a place. -/
  | drop (i : Nat)
  /-- Register a use. -/
  | use (key : Key κ) (id : UseId)
  /-- Free a use. -/
  | free (key : Key κ) (id : UseId)
  /-- Whatever else happens to the entries: writes, purges, commits. -/
  | work (change : Change κ ν Unit)

/-- One step. What is done with a place that holds no binding does nothing. -/
def step (d : Clientele κ ν) : Op κ ν → Clientele κ ν
  | .bind key inc options id =>
    let (b, r) := ({} : Binding κ).setKey d.resource key id
    { d with
      resource := r
      bindings := d.bindings ++ [{ b with includes := inc, options := options }]
      issued := id :: d.issued }
  | .act i deed =>
    match d.bindings[i]? with
    | none => d
    | some b =>
      let (b, r) := b.perform d.resource deed
      { d with
        resource := r
        bindings := d.bindings.set i b
        issued := deed.id?.toList ++ d.issued }
  | .drop i =>
    match d.bindings[i]? with
    | none => d
    | some b => { d with resource := (b.release d.resource).2, bindings := d.bindings.eraseIdx i }
  | .use key id =>
    { d with
      resource := d.resource.registerUse key id
      obtained := (key, id) :: d.obtained
      issued := id :: d.issued }
  | .free key id =>
    { d with resource := (d.resource.freeUse key id).1, freed := (key, id) :: d.freed }
  | .work change => { d with resource := (d.resource.apply change).1 }

/-- An id is handed out once, and a consumer frees only what it obtained, though perhaps under another
key and more than once. -/
def Allows (d : Clientele κ ν) : Op κ ν → Prop
  | .bind _ _ _ id | .use _ id => id ∉ d.issued
  | .act _ deed => ∀ id ∈ deed.id?, id ∉ d.issued
  | .free _ id => id ∈ d.obtained.map Prod.snd
  | .drop _ | .work _ => True

/-- The states that a resource nobody uses and its consumers can come to. -/
inductive Reachable : Clientele κ ν → Prop where
  | init {r : Resource κ ν} (h : r.uses = {}) : Reachable { resource := r }
  | tail {d : Clientele κ ν} (h : Reachable d) (op : Op κ ν) (hop : d.Allows op) : Reachable (d.step op)

/-- The uses that consumers registered themselves and did not free. -/
def held (d : Clientele κ ν) : List (Lease κ) := d.obtained.filter fun l => l ∉ d.freed

/-- All that is in use. -/
def leases (d : Clientele κ ν) : List (Lease κ) := d.bindings.filterMap Binding.lease ++ d.held

/-- The table of uses is right, and all ids are told apart. -/
structure Sound (d : Clientele κ ν) : Prop where
  /-- A binding has a use exactly when it follows a key. -/
  bound : ∀ b ∈ d.bindings, b.Bound
  /-- The table holds what is in use and nothing else. -/
  accounts : d.resource.uses.Accounts d.leases
  /-- The use of a binding has an id that no consumer has. -/
  apart : ∀ l ∈ d.bindings.filterMap Binding.lease, l.2 ∈ d.issued ∧ l.2 ∉ d.obtained.map Prod.snd
  /-- No id is obtained twice. -/
  once : (d.obtained.map Prod.snd).Nodup
  /-- What is obtained has been handed out. -/
  issued : ∀ id ∈ d.obtained.map Prod.snd, id ∈ d.issued
  /-- What is freed has been obtained, perhaps for another key. -/
  returned : ∀ l ∈ d.freed, l.2 ∈ d.obtained.map Prod.snd

variable {d : Clientele κ ν}

theorem mem_held {l : Lease κ} : l ∈ d.held ↔ l ∈ d.obtained ∧ l ∉ d.freed := by
  unfold held
  rw [List.mem_filter, decide_eq_true_eq]

/-- An id that has not been handed out is in nobody's use. -/
theorem Sound.not_leased (h : Sound d) {id : UseId} (hid : id ∉ d.issued) :
    id ∉ d.leases.map Prod.snd := by
  intro hmem
  obtain ⟨l, hl, rfl⟩ := List.mem_map.1 hmem
  rcases List.mem_append.1 hl with hbinding | hheld
  · exact hid (h.apart l hbinding).1
  · exact hid (h.issued _ (List.mem_map_of_mem (mem_held.1 hheld).1))

/-- The binding in a place, before the others. -/
theorem perm_of_getElem? {α : Type} {l : List α} {i : Nat} {a : α} (h : l[i]? = some a) :
    l.Perm (a :: l.eraseIdx i) ∧ ∀ b, (l.set i b).Perm (b :: l.eraseIdx i) := by
  obtain ⟨hi, rfl⟩ := List.getElem?_eq_some_iff.1 h
  exact ⟨(List.getElem_cons_eraseIdx_perm hi).symm, List.set_perm_cons_eraseIdx hi⟩

theorem perm_leases_cons {κ : Type} {b : Binding κ} {bs rest : List (Binding κ)} (h : bs.Perm (b :: rest))
    (held : List (Lease κ)) :
    (bs.filterMap Binding.lease ++ held).Perm
      (b.lease.toList ++ (rest.filterMap Binding.lease ++ held)) := by
  refine ((h.filterMap Binding.lease).append_right held).trans (List.Perm.of_eq ?_)
  rw [List.filterMap_cons]
  cases b.lease <;> rfl

/-- Another binding takes the place of one. The table follows, whatever else is in use. -/
theorem Sound.exchange (h : Sound d) {i : Nat} {b b' : Binding κ} (hi : d.bindings[i]? = some b)
    {r' : Resource κ ν} {issued' : List UseId} (hissued : d.issued ⊆ issued') (hbound : b'.Bound)
    (hlease : ∀ l ∈ b'.lease, l ∈ b.lease ∨ l.2 ∈ issued' ∧ l.2 ∉ d.issued)
    (haccounts : ∀ rest, d.resource.uses.Accounts (b.lease.toList ++ rest) →
      rest.map Prod.snd ⊆ d.issued → r'.uses.Accounts (b'.lease.toList ++ rest)) :
    Sound { d with resource := r', bindings := d.bindings.set i b', issued := issued' } := by
  obtain ⟨hbefore, hafter⟩ := perm_of_getElem? hi
  have hrest : ∀ l ∈ (d.bindings.eraseIdx i).filterMap Binding.lease,
      l ∈ d.bindings.filterMap Binding.lease := by
    intro l hl
    obtain ⟨b₀, hb₀, hlb₀⟩ := List.mem_filterMap.1 hl
    exact List.mem_filterMap.2 ⟨b₀, List.mem_of_mem_eraseIdx hb₀, hlb₀⟩
  refine ⟨fun b₀ hb₀ => ?_, ?_, fun l hl => ?_, h.once, fun id hid => hissued (h.issued id hid),
    h.returned⟩
  · rcases List.mem_or_eq_of_mem_set hb₀ with hold | rfl
    · exact h.bound b₀ hold
    · exact hbound
  · refine (haccounts _ (h.accounts.perm (perm_leases_cons hbefore d.held)) ?_).perm
      (perm_leases_cons (hafter b') d.held).symm
    intro id hid
    by_contra hnew
    refine h.not_leased hnew ?_
    obtain ⟨l, hl, rfl⟩ := List.mem_map.1 hid
    refine List.mem_map_of_mem (List.mem_append.2 ((List.mem_append.1 hl).imp_left (hrest l)))
  · obtain ⟨b₀, hb₀, hlb₀⟩ := List.mem_filterMap.1 hl
    -- a use that the binding did not have before has a new id, which nobody has obtained
    have hold : ∀ b₁ ∈ d.bindings, b₁.lease = some l →
        l.2 ∈ issued' ∧ l.2 ∉ d.obtained.map Prod.snd := by
      intro b₁ hb₁ hlb₁
      have hapart := h.apart l (List.mem_filterMap.2 ⟨b₁, hb₁, hlb₁⟩)
      exact ⟨hissued hapart.1, hapart.2⟩
    rcases List.mem_or_eq_of_mem_set hb₀ with hmem | rfl
    · exact hold b₀ hmem hlb₀
    · rcases hlease l hlb₀ with hsame | ⟨hin, hnew⟩
      · exact hold b (List.mem_of_getElem? hi) hsame
      · exact ⟨hin, fun hobtained => hnew (h.issued l.2 hobtained)⟩

theorem sound_act (h : Sound d) {i : Nat} {deed : Deed κ} (hop : d.Allows (.act i deed)) :
    Sound (d.step (.act i deed)) := by
  cases hi : d.bindings[i]? with
  | none =>
      have hstep : d.step (.act i deed) = d := by simp only [step, hi]
      rw [hstep]
      exact h
  | some b =>
      have hb : b.Bound := h.bound b (List.mem_of_getElem? hi)
      have hstep : d.step (.act i deed)
          = { d with
              resource := (b.perform d.resource deed).2
              bindings := d.bindings.set i (b.perform d.resource deed).1
              issued := deed.id?.toList ++ d.issued } := by
        simp only [step, hi]
      rw [hstep]
      rcases b.perform_cases d.resource deed with ⟨key, id, rfl⟩ | ⟨hnone, hkeeps⟩
      · have hid : id ∉ d.issued := hop id rfl
        refine h.exchange hi (List.subset_append_right _ _)
          (Binding.bound_setKey hb d.resource key id) (fun l hl => ?_) fun rest hrest hsub =>
          Binding.accounts_setKey hrest key fun hmem => hid (hsub hmem)
        rcases b.lease_setKey d.resource key id with heq | heq
        · exact .inl (heq ▸ hl)
        · refine .inr ?_
          obtain ⟨k, _, rfl⟩ := Option.map_eq_some_iff.1 (heq.symm.trans hl)
          exact ⟨List.mem_cons_self, hid⟩
      · refine h.exchange hi (List.subset_append_right _ _) (hkeeps.bound hb) (fun l hl => ?_)
          fun rest hrest _ => ?_
        · exact .inl (hkeeps.lease ▸ hl)
        · rw [hkeeps.uses, hkeeps.lease]
          exact hrest

theorem sound_bind (h : Sound d) {key : Option (Key κ)} {inc : Includes} {options : BindingOptions}
    {id : UseId} (hid : id ∉ d.issued) : Sound (d.step (.bind key inc options id)) := by
  let b := (({} : Binding κ).setKey d.resource key id).1
  let b' : Binding κ := { b with includes := inc, options := options }
  have hlease : b'.lease = b.lease := rfl
  have hnew : ∀ l, b'.lease = some l → l.2 = id := by
    intro l hl
    rcases ({} : Binding κ).lease_setKey d.resource key id with heq | heq
    · cases heq.symm.trans hl
    · obtain ⟨k, _, rfl⟩ := Option.map_eq_some_iff.1 (heq.symm.trans hl)
      rfl
  refine ⟨fun b₀ hb₀ => ?_, ?_, fun l hl => ?_, h.once,
    fun i hi => List.mem_cons_of_mem id (h.issued i hi), h.returned⟩
  · rcases List.mem_append.1 hb₀ with hold | hb'
    · exact h.bound b₀ hold
    · obtain rfl := List.mem_singleton.1 hb'
      exact Binding.bound_setKey (b := {}) rfl d.resource key id
  · have hbefore : d.resource.uses.Accounts ((({} : Binding κ).lease).toList ++ d.leases) := h.accounts
    refine (Binding.accounts_setKey hbefore key (h.not_leased hid)).perm ?_
    exact (perm_leases_cons (List.perm_append_singleton b' d.bindings) d.held).symm
  · obtain ⟨b₀, hb₀, hlb₀⟩ := List.mem_filterMap.1 hl
    rcases List.mem_append.1 hb₀ with hold | hb'
    · have hapart := h.apart l (List.mem_filterMap.2 ⟨b₀, hold, hlb₀⟩)
      exact ⟨List.mem_cons_of_mem id hapart.1, hapart.2⟩
    · obtain rfl := List.mem_singleton.1 hb'
      rw [hnew l hlb₀]
      exact ⟨List.mem_cons_self, fun hobtained => hid (h.issued id hobtained)⟩

theorem sound_drop (h : Sound d) (i : Nat) : Sound (d.step (.drop i)) := by
  cases hi : d.bindings[i]? with
  | none =>
      have hstep : d.step (.drop i) = d := by simp only [step, hi]
      rw [hstep]
      exact h
  | some b =>
      have hstep : d.step (.drop i)
          = { d with resource := (b.release d.resource).2, bindings := d.bindings.eraseIdx i } := by
        simp only [step, hi]
      rw [hstep]
      refine ⟨fun b₀ hb₀ => h.bound b₀ (List.mem_of_mem_eraseIdx hb₀), ?_, fun l hl => ?_, h.once,
        h.issued, h.returned⟩
      · exact Binding.accounts_release
          (h.accounts.perm (perm_leases_cons (perm_of_getElem? hi).1 d.held))
      · obtain ⟨b₀, hb₀, hlb₀⟩ := List.mem_filterMap.1 hl
        exact h.apart l (List.mem_filterMap.2 ⟨b₀, List.mem_of_mem_eraseIdx hb₀, hlb₀⟩)

theorem sound_use (h : Sound d) {key : Key κ} {id : UseId} (hid : id ∉ d.issued) :
    Sound (d.step (.use key id)) := by
  have hfresh : id ∉ d.obtained.map Prod.snd := fun hmem => hid (h.issued id hmem)
  have hfreed : (key, id) ∉ d.freed := fun hmem => hfresh (h.returned _ hmem)
  have hheld : (d.step (.use key id)).held = (key, id) :: d.held :=
    List.filter_cons_of_pos (decide_eq_true hfreed)
  refine ⟨h.bound, ?_, fun l hl => ?_, List.nodup_cons.2 ⟨hfresh, h.once⟩, fun i hi => ?_,
    fun l hl => List.mem_cons_of_mem id (h.returned l hl)⟩
  · unfold leases
    rw [hheld]
    exact (h.accounts.register (h.not_leased hid) key).perm List.perm_middle.symm
  · have hapart := h.apart l hl
    refine ⟨List.mem_cons_of_mem id hapart.1, fun hmem => ?_⟩
    rcases List.mem_cons.1 hmem with heq | hold
    · rw [heq] at hapart
      exact hid hapart.1
    · exact hapart.2 hold
  · rcases List.mem_cons.1 hi with rfl | hold
    · exact List.mem_cons_self
    · exact List.mem_cons_of_mem id (h.issued i hold)

/-- What a consumer holds once it has called to free something. -/
theorem held_free (d : Clientele κ ν) (key : Key κ) (id : UseId) :
    (d.step (.free key id)).held = d.held.filter fun l => ¬ l = (key, id) := by
  show d.obtained.filter _ = (d.obtained.filter _).filter _
  rw [List.filter_filter]
  refine List.filter_congr fun l _ => ?_
  simp [step]

/-- A use with an id that a consumer obtained is that consumer's. -/
theorem Sound.mem_held_of_leased (h : Sound d) {l : Lease κ} (hl : l ∈ d.leases)
    (hid : l.2 ∈ d.obtained.map Prod.snd) : l ∈ d.held := by
  rcases List.mem_append.1 hl with hbinding | hheld
  · exact absurd hid (h.apart l hbinding).2
  · exact hheld

theorem sound_free (h : Sound d) {key : Key κ} {id : UseId} (hid : id ∈ d.obtained.map Prod.snd) :
    Sound (d.step (.free key id)) := by
  refine ⟨h.bound, ?_, h.apart, h.once, h.issued, fun l hl => ?_⟩
  · show (d.resource.uses.free key id).Accounts
      (d.bindings.filterMap Binding.lease ++ (d.step (.free key id)).held)
    rw [held_free]
    by_cases hheld : (key, id) ∈ d.held
    · -- one lease goes
      have hnodup : d.held.Nodup := (h.once.of_map).filter _
      have hrest : d.held.Perm ((key, id) :: d.held.filter fun l => ¬ l = (key, id)) := by
        refine (List.perm_cons_erase hheld).trans (List.Perm.of_eq (congrArg _ ?_))
        rw [hnodup.erase_eq_filter]
        refine List.filter_congr fun l _ => ?_
        by_cases hl : l = (key, id) <;> simp [hl]
      exact (h.accounts.perm ((hrest.append_left _).trans List.perm_middle)).free
    · -- nothing of the kind is in use, not by a binding either
      have hnone : (key, id) ∉ d.leases := fun hl => hheld (h.mem_held_of_leased hl hid)
      have hsame : d.held.filter (fun l => ¬ l = (key, id)) = d.held := by
        refine List.filter_eq_self.2 fun l hl => decide_eq_true ?_
        rintro rfl
        exact hheld hl
      rw [hsame, h.accounts.free_of_not_mem hnone]
      exact h.accounts
  · rcases List.mem_cons.1 hl with rfl | hold
    · exact hid
    · exact h.returned l hold

theorem sound_step (h : Sound d) {op : Op κ ν} (hop : d.Allows op) : Sound (d.step op) := by
  cases op with
  | bind key inc options id => exact sound_bind h hop
  | act i deed => exact sound_act h hop
  | drop i => exact sound_drop h i
  | use key id => exact sound_use h hop
  | free key id => exact sound_free h hop
  | work change => exact ⟨h.bound, h.accounts, h.apart, h.once, h.issued, h.returned⟩

theorem sound_reachable (hd : Reachable d) : Sound d := by
  induction hd with
  | @init r h =>
      refine ⟨?_, ?_, ?_, List.nodup_nil, ?_, ?_⟩
      · exact fun b hb => absurd hb List.not_mem_nil
      · show r.uses.Accounts []
        rw [h]
        exact Uses.Accounts.empty
      · exact fun l hl => absurd hl List.not_mem_nil
      · exact fun id hid => absurd hid List.not_mem_nil
      · exact fun l hl => absurd hl List.not_mem_nil
  | tail _ op hop ih => exact sound_step ih hop

/-! ## What the table of uses tells -/

theorem Sound.count_eq (h : Sound d) (key : Key κ) :
    d.resource.uses.count key
      = d.bindings.countP (fun b => b.key = some key) + d.held.countP fun l => l.1 = key := by
  have hbindings : (d.bindings.filterMap Binding.lease).countP (fun l => l.1 = key)
      = d.bindings.countP fun b => b.key = some key := by
    rw [List.countP_filterMap]
    refine List.countP_congr fun b hb => ?_
    rw [(h.bound b hb).lease_of key]
  rw [h.accounts.count_eq, leases, List.countP_append, hbindings]

/-- What has been freed under its own key is not in use any more, under any key. -/
theorem Sound.not_leased_of_freed (h : Sound d) {l : Lease κ} (hl : l ∈ d.obtained)
    {key : Key κ} (hkey : l ∈ d.freed ∨ ¬ key = l.1) : (key, l.2) ∉ d.leases := by
  intro hmem
  have hheld := h.mem_held_of_leased hmem (List.mem_map.2 ⟨l, hl, rfl⟩)
  obtain ⟨hobtained, hkept⟩ := mem_held.1 hheld
  -- ids are obtained once, so it is the same use
  have hsame : (key, l.2) = l := List.inj_on_of_nodup_map h.once hobtained hl rfl
  rcases hkey with hfreed | hne
  · rw [hsame] at hkept
    exact hkept hfreed
  · exact hne (congrArg Prod.fst hsame)

/--
**Uses are conserved.**

In every state that a resource with any number of bindings and consumers can come to, the count of a
key is the number of live bindings that follow it and of the direct uses of it that were not freed; a
key counts as used, and is tracked, exactly if there is one, and no tracked key is without an id. The
ids the table knows are those in use, each registered for one key. What is in use can be freed, under
its own key and once: under another key, or once more, the answer is no and nothing changes, however
long ago the first time was.
-/
theorem uses_conserved (hd : Reachable d) :
    (∀ key, d.resource.uses.count key
        = d.bindings.countP (fun b => b.key = some key) + d.held.countP fun l => l.1 = key)
      ∧ (∀ key, (d.resource.uses.isUsed key = true
            ↔ 0 < d.bindings.countP (fun b => b.key = some key) + d.held.countP fun l => l.1 = key)
          ∧ (d.resource.uses.isUsed key = true ↔ key ∈ d.resource.uses.tracked)
          ∧ (key ∈ d.resource.uses.tracked → d.resource.uses.idsOf key ≠ []))
      ∧ (∀ id, (d.resource.uses.hasId id = true ↔ id ∈ d.leases.map Prod.snd)
          ∧ (id ∈ d.leases.map Prod.snd → ∃! key, d.resource.uses.holds key id = true))
      ∧ (∀ l ∈ d.leases, (d.resource.freeUse l.1 l.2).2 = true
          ∧ (∀ key, ¬ key = l.1 → d.resource.freeUse key l.2 = (d.resource, false))
          ∧ ∀ key, (d.resource.freeUse l.1 l.2).1.freeUse key l.2
              = ((d.resource.freeUse l.1 l.2).1, false))
      ∧ ∀ l ∈ d.obtained, ∀ key, l ∈ d.freed ∨ ¬ key = l.1 →
          d.resource.freeUse key l.2 = (d.resource, false) := by
  have h := sound_reachable hd
  refine ⟨h.count_eq, fun key => ⟨?_, Uses.mem_tracked.symm, fun hkey => ?_⟩,
    fun id => ⟨h.accounts.hasId_iff, fun hid => ?_⟩,
    fun l hl => ⟨h.accounts.holds_iff.2 hl, fun key hkey => ?_, fun key => ?_⟩,
    fun l hl key hkey => Resource.freeUse_of_not_mem h.accounts (h.not_leased_of_freed hl hkey)⟩
  · rw [h.accounts.isUsed_iff, h.count_eq]
  · exact List.length_pos_iff.1 (h.accounts.isUsed_iff.1 (Uses.mem_tracked.1 hkey))
  · obtain ⟨⟨key, i⟩, hl, rfl⟩ := List.mem_map.1 hid
    refine ⟨key, h.accounts.holds_iff.2 hl, fun j hj => ?_⟩
    exact h.accounts.lease_unique (h.accounts.holds_iff.1 hj) hl
  · exact Resource.freeUse_of_not_mem h.accounts fun hmem => hkey (h.accounts.lease_unique hmem hl)
  · -- with the lease off the list, its id is on it no more
    have hfreed := (h.accounts.perm (List.perm_cons_erase hl)).free
    have honce := ((List.perm_cons_erase hl).map Prod.snd).nodup_iff.1 h.accounts.once
    refine Resource.freeUse_of_not_mem hfreed fun hmem => ?_
    exact (List.nodup_cons.1 honce).1 (List.mem_map.2 ⟨(key, l.2), hmem, rfl⟩)

/-- Two bindings follow a key and a consumer uses another; one binding goes over to that key, the other
is let go of, and the consumer names the wrong key. Two uses of the other key are left, and the
consumer's can still not be freed under the wrong one. -/
theorem uses_conserved_shared :
    let a : Key String := .single "a"
    let b : Key String := .single "b"
    let ops : List (Op String Nat) := [.bind (some a) Includes.none {} 1,
      .bind (some a) Includes.none {} 2, .use b 3, .act 0 (.setKey (some b) 4), .act 1 (.poll none 0),
      .free a 3, .drop 1]
    let d := ops.foldl step { resource := { name := "entries" } }
    d.resource.uses.count b = 2 ∧ d.resource.uses.isUsed a = false
      ∧ d.resource.freeUse a 3 = (d.resource, false) := by
  intro a b ops d
  have hnone : Reachable ({ resource := { name := "entries" } } : Clientele String Nat) := .init rfl
  have hfirst := hnone.tail (.bind (some a) Includes.none {} 1) List.not_mem_nil
  have hsecond := hfirst.tail (.bind (some a) Includes.none {} 2) (show ¬ 2 ∈ [1] by decide)
  have huse := hsecond.tail (.use b 3) (show ¬ 3 ∈ [2, 1] by decide)
  have hmoved := huse.tail (.act 0 (.setKey (some b) 4)) fun _ hid =>
    Option.some.inj hid ▸ show ¬ 4 ∈ [3, 2, 1] by decide
  have hpolled := hmoved.tail (.act 1 (.poll none 0)) (by rintro id ⟨⟩)
  have hfreed := hpolled.tail (.free a 3) (show 3 ∈ [3] by decide)
  have hd : Reachable d := hfreed.tail (.drop 1) trivial
  have h := uses_conserved hd
  refine ⟨(h.1 b).trans (by decide +kernel), ?_,
    h.2.2.2.2 (b, 3) (by decide +kernel) a (.inr (by decide))⟩
  rw [← Bool.not_eq_true, (h.2.1 a).1]
  decide +kernel

end Clientele

end Larder
