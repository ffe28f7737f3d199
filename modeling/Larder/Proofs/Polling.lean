import Larder.Proofs.Following

/-!
# What polling comes to

Two things could go wrong with a consumer that does nothing but poll. A load that fails could be asked
for again at every tick; so a failure that the binding holds stops it from asking, whatever becomes of
the entries meanwhile, until the consumer asks or turns to something else. And the binding could stop
asking while there is nothing to show; so after a poll it waits for a request, or shows its failure, or
its data is there. The last holds because what need not be loaded has been loaded.
-/

namespace Larder

/-! ## What is fresh is there -/

theorem Ledger.isLoaded_of_not_isOutdated {κ : Type} [DecidableEq κ] {l : Ledger κ} {t : Target κ}
    {inc : Includes} (h : l.isOutdated t inc = false) : l.isLoaded t inc = true := by
  unfold isOutdated at h
  unfold isLoaded
  cases hm : l.meta? t with
  | none =>
      rw [hm] at h
      cases h
  | some m =>
      rw [hm] at h
      simp only [EntryMeta.isStale, Bool.or_eq_false_iff, Bool.not_eq_false'] at h
      simp only [h.1.2, h.2, Bool.and_self]

theorem Cache.isLoaded_of_not_isOutdated {κ ν : Type} [EntryKey κ] {c : Cache κ ν} {key : Key κ}
    {inc : Includes} (h : c.isOutdated key inc = false) : c.isLoaded key inc = true := by
  unfold isOutdated at h
  rw [Bool.or_eq_false_iff, List.any_eq_false] at h
  obtain ⟨halias, hkeys⟩ := h
  unfold isLoaded
  rw [Bool.and_eq_true, List.all_eq_true]
  refine ⟨?_, fun k hk => Ledger.isLoaded_of_not_isOutdated (Bool.eq_false_iff.2 (hkeys k hk))⟩
  cases ha : key.asAlias with
  | none => rfl
  | some a =>
      rw [ha] at halias
      exact Ledger.isLoaded_of_not_isOutdated halias

/-- What an active binding offers when it asks for nothing. -/
theorem Binding.settled_of_not_canLoad {κ ν : Type} [EntryKey κ] {b : Binding κ} {r : Resource κ ν}
    (hmany : r.isSingle = false) {k : Key κ} (hkey : b.key = some k) (hactive : b.options.active = true)
    (hfreeze : b.options.freeze = false) (hidle : b.canLoad r = false) :
    (∃ n, b.request = some n) ∨ (∃ e, b.exception = some e ∧ b.state r = .failed e)
      ∨ (r.cache.isOutdated k b.includes = false
        ∧ b.state r = .loaded (.many (r.cache.getMany k))) := by
  unfold state
  simp only [hkey]
  cases hrequest : b.request with
  | some n => exact Or.inl ⟨n, rfl⟩
  | none =>
      right
      cases hexception : b.exception with
      | some e => exact Or.inl ⟨e, rfl, rfl⟩
      | none =>
          right
          -- only freshness can have kept the binding from asking
          have hfresh : r.cache.isOutdated k b.includes = false := by
            rw [← Bool.not_eq_true]
            intro hout
            have hload := canLoad_iff.2 ⟨k, hkey, hactive, hfreeze, hrequest, hexception, hout⟩
            rw [hidle] at hload
            cases hload
          refine ⟨hfresh, ?_⟩
          dsimp only
          rw [Cache.isLoaded_of_not_isOutdated hfresh, if_pos rfl]
          unfold Resource.read
          rw [hmany]
          rfl

namespace Follower

variable {κ ν : Type} [EntryKey κ] {s : Follower κ ν} {key : Option (Key κ)} {inc : Includes}
  {e : Failure}

/-! ## A failure that is held -/

/-- The order asks for nothing and follows nothing else. -/
def Order.Idle (key : Option (Key κ)) (inc : Includes) : Order κ → Prop
  | .poll | .setOptions _ => True
  | .setKey key' _ => key' = key
  | .setIncludes inc' => inc' = inc
  | .retry | .reload | .resolve => False

/-- The step leaves it to the binding what to do: polls, and all that the binding has no part in. -/
def Op.Idle (key : Option (Key κ)) (inc : Includes) : Op κ ν → Prop
  | .order o => o.Idle key inc
  | .resolved | .drop => False
  | .giveUp | .carry _ | .lose _ | .use _ _ | .free _ _ | .work _ => True

/-- The binding holds a failure of what it follows. -/
structure Failing (s : Follower κ ν) (key : Option (Key κ)) (inc : Includes) (e : Failure)
    (b : Binding κ) : Prop where
  binding : s.binding = some b
  orderly : b.Orderly
  key : b.key = key
  includes : b.includes = inc
  exception : b.exception = some e

theorem Failing.request {b : Binding κ} (h : s.Failing key inc e b) : b.request = none := by
  refine h.orderly.exclusive.resolve_right ?_
  rw [h.exception]
  exact Option.some_ne_none e

theorem Failing.state {b : Binding κ} (h : s.Failing key inc e b) : b.state s.resource = .failed e := by
  unfold Binding.state
  rw [h.request, h.exception]
  cases hkey : b.key with
  | none =>
      have hnone := (h.orderly.idle hkey).2
      rw [h.exception] at hnone
      cases hnone
  | some k => rfl

/-- A poll finds nothing to collect and asks for nothing. -/
theorem Failing.polled {b : Binding κ} (h : s.Failing key inc e b) :
    s.polled b = ({ binding := b, resource := s.resource }, false) := by
  have hparcel : s.parcel? b = none := by
    unfold parcel?
    rw [h.request]
    rfl
  unfold Follower.polled
  rw [hparcel]
  rcases b.poll_cases s.resource none s.inquiries.length with ⟨_, _, hload, _⟩ | ⟨_, hpoll⟩
  · obtain ⟨_, _, _, _, _, hnone, _⟩ := Binding.canLoad_iff.1 hload
    cases h.exception.symm.trans hnone
  · exact hpoll

/-- An idle order leaves the failure, asks for nothing and tells nothing. -/
theorem Failing.attend {b : Binding κ} (h : s.Failing key inc e b) {o : Order κ} (ho : o.Idle key inc) :
    ∃ options, s.attend b o
      = { move := { binding := { b with options := options }, resource := s.resource } } := by
  cases o with
  | setKey key' id =>
      refine ⟨b.options, ?_⟩
      have hsame : b.setKey s.resource key' id = (b, s.resource) := by
        unfold Binding.setKey
        rw [if_pos]
        refine ⟨h.key.trans ho.symm, ?_⟩
        cases hkey : key' with
        | none => exact Or.inl rfl
        | some k =>
            right
            -- a binding that follows a key has a use of it, so the call returns at once
            have hbound : b.use.isSome = b.key.isSome := h.orderly.bound
            rw [hbound, h.key, ← ho, hkey]
            rfl
      simp only [Follower.attend, hsame]
  | setIncludes inc' =>
      refine ⟨b.options, ?_⟩
      have hsame : b.setIncludes inc' = b := if_pos (h.includes.trans ho.symm)
      simp only [Follower.attend, hsame]
  | setOptions options => exact ⟨options, rfl⟩
  | poll =>
      refine ⟨b.options, ?_⟩
      have hnone : s.collects b = none := by
        unfold collects parcel?
        rw [h.request]
        rfl
      simp only [Follower.attend, h.polled, hnone]
  | _ => exact absurd ho id

theorem Failing.turn?_idle {b : Binding κ} (h : s.Failing key inc e b) {op : Op κ ν}
    (hop : op.Idle key inc) {b' : Binding κ} {t : Turn κ ν} (hturn : s.turn? op = some (b', t)) :
    b' = b ∧ ∃ options,
      t = { move := { binding := { b with options := options }, resource := s.resource } } := by
  obtain ⟨hb, ⟨o, rfl, _, rfl⟩ | ⟨_, _, rfl, _, _, _⟩⟩ := turn?_cases hturn
  · obtain rfl : b' = b := Option.some.inj (hb.symm.trans h.binding)
    exact ⟨rfl, h.attend hop⟩
  · exact absurd hop id

theorem Failing.notices {b : Binding κ} (h : s.Failing key inc e b) {op : Op κ ν}
    (hop : op.Idle key inc) : s.notices op = [] := by
  unfold Follower.notices
  cases hturn : s.turn? op with
  | none => rfl
  | some bt =>
      obtain ⟨b', t⟩ := bt
      obtain ⟨_, options, rfl⟩ := h.turn?_idle hop hturn
      rfl

/-- An idle step leaves the failure and makes no request. -/
theorem Failing.step {b : Binding κ} (h : s.Failing key inc e b) {op : Op κ ν} (hop : op.Idle key inc) :
    (∃ b', (s.step op).Failing key inc e b') ∧ (s.step op).inquiries = s.inquiries
      ∧ (s.step op).history = s.history := by
  cases hturn : s.turn? op with
  | some bt =>
      obtain ⟨b', t⟩ := bt
      obtain ⟨rfl, options, rfl⟩ := h.turn?_idle hop hturn
      rw [step_of_turn hturn]
      refine ⟨⟨{ b' with options := options }, rfl, ?_, h.key, h.includes, h.exception⟩, ?_, ?_⟩
      · exact ⟨h.orderly.bound, h.orderly.idle, h.orderly.exclusive⟩
      · unfold take
        dsimp only
        rw [Turn.inquiry_of_none rfl]
        exact List.append_nil s.inquiries
      · unfold take Turn.happenings
        dsimp only
        rw [Turn.inquiry_of_none rfl, if_pos ⟨rfl, rfl⟩]
        exact List.append_nil s.history
  | none =>
      have hdrop : op ≠ .drop := by
        rintro rfl
        exact hop
      obtain ⟨hbinding, hinquiries, hhistory⟩ := step_aside hturn hdrop
      exact ⟨⟨b, hbinding.trans h.binding, h.orderly, h.key, h.includes, h.exception⟩, hinquiries, hhistory⟩

theorem Failing.run {b : Binding κ} (h : s.Failing key inc e b) {ops : List (Op κ ν)}
    (hops : ∀ op ∈ ops, op.Idle key inc) :
    (∃ b', (s.run ops).Failing key inc e b') ∧ (s.run ops).inquiries = s.inquiries
      ∧ (s.run ops).history = s.history := by
  induction ops generalizing s b with
  | nil => exact ⟨⟨b, h⟩, rfl, rfl⟩
  | cons op ops ih =>
      obtain ⟨⟨b', h'⟩, hinquiries, hhistory⟩ := h.step (hops op List.mem_cons_self)
      obtain ⟨hfailing, hinquiries', hhistory'⟩ :=
        ih h' fun op' hop' => hops op' (List.mem_cons_of_mem op hop')
      exact ⟨hfailing, hinquiries'.trans hinquiries, hhistory'.trans hhistory⟩

/--
**A failure is not followed by another request unless the consumer makes it so.**

A binding never waits for a request and holds a failure at the same time. And once it holds a failure,
then along any run of polls, of changes of its options, of calls to follow what it follows already, and
of whatever others do to the resource and the couriers: it makes no request, every poll says that nothing
has changed and does nothing, nothing is told, and what the binding offers is the failure.
-/
theorem failure_kept (hs : Reachable s) :
    (∀ b, s.binding = some b → b.request = none ∨ b.exception = none)
      ∧ ∀ b e, s.binding = some b → b.exception = some e →
        ∀ ops : List (Op κ ν), (∀ op ∈ ops, op.Idle b.key b.includes) →
          let s' := s.run ops
          (∃ b', s'.binding = some b' ∧ b'.state s'.resource = .failed e
              ∧ s'.polled b' = ({ binding := b', resource := s'.resource }, false))
            ∧ s'.inquiries = s.inquiries ∧ s'.history = s.history
            ∧ ∀ op : Op κ ν, op.Idle b.key b.includes → s'.notices op = [] := by
  have hsound := sound_reachable hs
  refine ⟨fun b hb => (hsound.orderly b hb).exclusive, fun b e hb he ops hops => ?_⟩
  have hfailing : s.Failing b.key b.includes e b := ⟨hb, hsound.orderly b hb, rfl, rfl, he⟩
  obtain ⟨⟨b', hfailing'⟩, hinquiries, hhistory⟩ := hfailing.run hops
  exact ⟨⟨b', hfailing'.binding, hfailing'.state, hfailing'.polled⟩, hinquiries, hhistory,
    fun op hop => hfailing'.notices hop⟩

/-- A load fails and its binding is told. Then the entry is written and everything is marked outdated, but
the binding offers its failure and has asked for nothing since. -/
theorem failure_kept_outdated :
    let key : Option (Key String) := some (.single "a")
    let s := (begun ({ name := "entries" } : Resource String Nat) [] [] key 0 .none {}).run
      [.order .poll, .work (.commit 1 ⟨0, 0⟩ (.error (.plain "offline"))), .carry 0, .order .poll]
    let ops : List (Op String Nat) := [.work (.setMany ⟨0, 0⟩ [("a", 1)]), .order (.setKey key 1),
      .work .markAllOutdated, .order .poll]
    ∃ b e, s.binding = some b ∧ b.exception = some e ∧ s.inquiries.length = 1
      ∧ (s.run ops).inquiries = s.inquiries
      ∧ ∃ b', (s.run ops).binding = some b' ∧ b'.state (s.run ops).resource = .failed e := by
  intro key s ops
  have hs : Reachable s := (reachable_new "entries" {} _ _ _ _).run _
  have hfailed : s.exception?.isSome = true := by decide +kernel
  obtain ⟨e, he⟩ := Option.isSome_iff_exists.1 hfailed
  obtain ⟨b, hb, he⟩ := Option.bind_eq_some_iff.1 he
  have hfollowed : s.binding.map (fun b => (b.key, b.includes)) = some (key, .none) := by decide +kernel
  rw [hb] at hfollowed
  obtain ⟨hkey, hinc⟩ := Prod.mk.inj (Option.some.inj hfollowed)
  have hidle : ∀ op ∈ ops, op.Idle b.key b.includes := by
    rw [hkey, hinc]
    simp [ops, Op.Idle, Order.Idle]
  obtain ⟨⟨b', hb', hstate, _⟩, hinquiries, _⟩ := (failure_kept hs).2 b e hb he ops hidle
  exact ⟨b, e, hb, he, by decide +kernel, hinquiries, b', hb', hstate⟩

/-! ## A binding that polls -/

/-- What a request waits for: a result that is there, or a load that is to end. -/
def Afoot (s : Follower κ ν) (b : Binding κ) (n : Nat) : Prop :=
  s.history.getLast? = some (.asked n) ∧ ∃ q, s.inquiries[n]? = some q ∧ q.IsOf b
    ∧ ((s.answer? n).isSome ∨ ∃ load ∈ s.pending ++ s.broken, q.started.seq? = some load.seq
        ∧ load.signature = q.signature)

theorem Sound.afoot (h : Sound s) {b : Binding κ} {n : Nat} (hb : s.binding = some b)
    (hn : b.request = some n) : s.Afoot b n := by
  have hresolving : s.resolving = none := by
    by_contra hne
    rw [h.aside b hb hne] at hn
    cases hn
  have hawaits : s.awaits b = some n := by
    unfold awaits
    rw [hresolving, Option.none_or, hn]
  obtain ⟨hlast, q, hq, hof⟩ := h.last b n hb hawaits
  refine ⟨hlast, q, hq, hof, ?_⟩
  unfold answer?
  rw [hq, Option.bind_some]
  cases hresult : q.started.result? s.ended with
  | some result => exact Or.inl rfl
  | none =>
      exact Or.inr (Busy.exists_loose_of_result? (h.known q (List.mem_of_getElem? hq)) hresult)

/-- What a binding that is active and not frozen comes to by a poll. -/
theorem polled_comes {b : Binding κ} (hmany : s.resource.isSingle = false) {k : Key κ}
    (hkey : b.key = some k) (hactive : b.options.active = true) (hfreeze : b.options.freeze = false) :
    let move := (s.polled b).1
    move.binding.key = some k ∧ move.binding.includes = b.includes
      ∧ ((∃ n, move.binding.request = some n)
        ∨ (∃ e, move.binding.exception = some e ∧ move.binding.state move.resource = .failed e)
        ∨ (move.resource.cache.isOutdated k b.includes = false
          ∧ move.binding.state move.resource = .loaded (.many (move.resource.cache.getMany k)))) := by
  intro move
  obtain ⟨b', result, hmove, hparcel⟩ := s.polled_fst b
  -- giving up a request that is lost changes neither what is followed nor how
  have hsame : b'.key = b.key ∧ b'.includes = b.includes ∧ b'.options = b.options := by
    rcases hparcel with ⟨_, rfl, _⟩ | ⟨_, _, rfl, _⟩ | ⟨_, rfl, _⟩ <;> exact ⟨rfl, rfl, rfl⟩
  obtain ⟨hkey', hinc', hoptions'⟩ := b'.collect_follows s.resource result
  rw [hsame.1, hkey] at hkey'
  rw [hsame.2.1] at hinc'
  rw [hsame.2.2] at hoptions'
  rcases b'.poll_cases s.resource result s.inquiries.length with ⟨_, _, _, hpoll⟩ | ⟨hidle, hpoll⟩
  · have hm : move = _ := hmove.trans (congrArg Prod.fst hpoll)
    rw [hm]
    exact ⟨hkey', hinc', Or.inl ⟨_, rfl⟩⟩
  · have hm : move = _ := hmove.trans (congrArg Prod.fst hpoll)
    rw [hm]
    refine ⟨hkey', hinc', ?_⟩
    rw [← hinc']
    exact Binding.settled_of_not_canLoad hmany hkey' (by rw [hoptions', hactive])
      (by rw [hoptions', hfreeze]) hidle

/--
**An active binding is never stuck.**

The binding follows a key of a collection, is active and not frozen, and its consumer does not wait in
place of polling. After a poll, in any state that it can come to, the binding waits for a request that
it made last and for what it follows, whose result is there or whose load is to end; or it holds a
failure and offers it; or what it follows is fresh, and it offers the values. So it is never loading or
idle without a request.
-/
theorem poll_never_stuck (hs : Reachable s) (hmany : s.resource.isSingle = false)
    (hresolving : s.resolving = none) {b : Binding κ} (hb : s.binding = some b) {k : Key κ}
    (hkey : b.key = some k) (hactive : b.options.active = true) (hfreeze : b.options.freeze = false) :
    let s' := s.step (.order .poll)
    ∃ b', s'.binding = some b' ∧ b'.key = some k ∧ b'.includes = b.includes
      ∧ ((∃ n, b'.request = some n ∧ s'.Afoot b' n)
        ∨ (∃ e, b'.exception = some e ∧ b'.state s'.resource = .failed e)
        ∨ (s'.resource.cache.isOutdated k b.includes = false
          ∧ b'.state s'.resource = .loaded (.many (s'.resource.cache.getMany k))))
      ∧ (b'.request = none → b'.state s'.resource ≠ .loading ∧ b'.state s'.resource ≠ .idle) := by
  intro s'
  have hturn : s.turn? (.order .poll) = some (b, s.attend b .poll) := by
    unfold turn?
    simp only [hb, hresolving]
  have hstep : s' = s.take b (s.attend b .poll) := step_of_turn hturn
  have hbinding : s'.binding = some (s.polled b).1.binding := by rw [hstep]; rfl
  have hresource : s'.resource = (s.polled b).1.resource := by rw [hstep]; rfl
  obtain ⟨hkey', hinc', hcomes⟩ := polled_comes hmany hkey hactive hfreeze
  refine ⟨_, hbinding, hkey', hinc', ?_, fun hnone => ?_⟩
  · rw [hresource]
    refine hcomes.imp_left ?_
    rintro ⟨n, hn⟩
    exact ⟨n, hn, (sound_reachable (hs.tail _)).afoot hbinding hn⟩
  · rw [hresource]
    rcases hcomes with ⟨n, hn⟩ | ⟨e, _, hfailed⟩ | ⟨_, hloaded⟩
    · cases hnone.symm.trans hn
    · rw [hfailed]
      exact ⟨nofun, nofun⟩
    · rw [hloaded]
      exact ⟨nofun, nofun⟩

/-- The load of a key ends and its result is brought. The poll that collects it finds the key fresh and does
not ask again: there are data to show. -/
theorem poll_never_stuck_loaded :
    let s := (begun ({ name := "entries" } : Resource String Nat) [] [] (some (.single "a")) 0 .none {}).run
      [.order .poll, .work (.commit 1 ⟨0, 0⟩ (.ok [("a", 10)])), .carry 0]
    let s' := s.step (.order .poll)
    ∃ b', s'.binding = some b' ∧ b'.request = none ∧ b'.state s'.resource ≠ .loading
      ∧ b'.state s'.resource ≠ .idle := by
  intro s s'
  have hs : Reachable s := (reachable_new "entries" {} _ _ _ _).run _
  have hfollowed : s.binding.map (fun b => (b.key, b.options)) = some (some (.single "a"), {}) := by
    decide +kernel
  obtain ⟨b, hb, hfollows⟩ := Option.map_eq_some_iff.1 hfollowed
  obtain ⟨hkey, hoptions⟩ := Prod.mk.inj hfollows
  obtain ⟨b', hb', _, _, _, hsettled⟩ := poll_never_stuck hs (by decide +kernel) (by decide +kernel) hb hkey
    (by rw [hoptions]) (by rw [hoptions])
  have hnone : s'.binding.bind Binding.request = none := by decide +kernel
  rw [show s'.binding = some b' from hb'] at hnone
  exact ⟨b', hb', hnone, hsettled hnone⟩

end Follower

end Larder
