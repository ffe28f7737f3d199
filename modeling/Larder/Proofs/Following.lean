import Larder.Proofs.Requests
import Larder.Proofs.Results

/-!
# A binding tells the result of its last request only

A binding may have many requests under way: it asks again when its consumer retries or reloads, and what
was asked for a key that is no longer followed runs on. Their loads end in any order, and a courier for
each brings the result when it gets to it, or is lost. All the binding has to tell them apart is the
number of the one request it waits for.

A follower is a binding at work: the binding, the resource with all that others do to it, the loads, the
couriers, and a history of what the binding has done. The invariant is about the history. The request
that is waited for is what the history ends with, so nothing has happened since it was made: the binding
has followed nothing else, has asked for nothing else and has told nothing. Telling its result goes on
the record, and with that the request is no longer at the end.
-/

namespace Larder

/-! ## The follower -/

/-- The cache of a resource at work. -/
def Resource.workedOn {κ ν : Type} [EntryKey κ] (r : Resource κ ν)
    (pending broken : List (PendingLoad κ)) : Busy κ ν where
  name := r.name
  policy := r.policy
  cache := r.cache
  pending := pending
  broken := broken

/-- A request of a binding: what it was made for, and what came of the wish to load. -/
structure Inquiry (κ : Type) where
  signature : Signature κ
  started : Started κ

/-- The request was made for what the binding follows. -/
def Inquiry.IsOf {κ : Type} (q : Inquiry κ) (b : Binding κ) : Prop :=
  b.key = some q.signature.key ∧ b.includes = q.signature.includes

/-- What has become of the courier of a request. -/
inductive Parcel where
  | arrived (result : LoadResult)
  | lost

/-- What goes on the record of a binding. -/
inductive Happening where
  /-- It has made the request with a number. -/
  | asked (n : Nat)
  /-- It has told the result of the request with a number. -/
  | told (n : Nat)
  /-- It follows another key or asks for other includes. -/
  | turned
  /-- Its consumer has let go of it. -/
  | dropped
deriving DecidableEq

/-- The request whose result was told, if that is what happened. -/
def Happening.told? : Happening → Option Nat
  | .told n => some n
  | _ => none

/-- A binding at work. -/
structure Follower (κ ν : Type) [EntryKey κ] where
  resource : Resource κ ν
  /-- The loads under way, of whomever. -/
  pending : List (PendingLoad κ) := []
  /-- The loads whose commit broke off. -/
  broken : List (PendingLoad κ) := []
  /-- The loads that have ended. -/
  ended : Ended κ := []
  /-- The binding, until it is dropped. -/
  binding : Option (Binding κ)
  /-- The requests of the binding; the number of a request is its place. -/
  inquiries : List (Inquiry κ) := []
  /-- What the couriers have brought, by request. -/
  mail : Table Nat Parcel := .empty
  /-- The request whose result the consumer waits for in place of polling. -/
  resolving : Option Nat := none
  history : List Happening := []

namespace Follower

variable {κ ν : Type} [EntryKey κ]

/-- What a consumer has its binding do. -/
inductive Order (κ : Type) where
  | setKey (key : Option (Key κ)) (id : UseId)
  | setIncludes (inc : Includes)
  | setOptions (options : BindingOptions)
  | poll
  | retry
  | reload
  /-- Begin to wait for the data. -/
  | resolve

/-- What can happen to a binding at work. -/
inductive Op (κ ν : Type) [EntryKey κ] where
  | order (o : Order κ)
  /-- The result is there that the consumer waits for. -/
  | resolved
  /-- The consumer gives up waiting. -/
  | giveUp
  /-- The consumer lets go of the binding. -/
  | drop
  /-- The courier of a request brings the result. -/
  | carry (n : Nat)
  /-- The courier of a request is lost. -/
  | lose (n : Nat)
  /-- Somebody registers a use of the resource. -/
  | use (key : Key κ) (id : UseId)
  /-- Somebody frees a use of the resource. -/
  | free (key : Key κ) (id : UseId)
  /-- Anything at all happens to the entries, be it by other bindings. -/
  | work (op : Larder.Op κ ν)

/-- The cache of the resource at work. -/
abbrev busy (s : Follower κ ν) : Busy κ ν := s.resource.workedOn s.pending s.broken

/-- The result of a request, once it is there. -/
def answer? (s : Follower κ ν) (n : Nat) : Option LoadResult :=
  (s.inquiries[n]?).bind fun q => q.started.result? s.ended

/-- What the courier has brought of the request that the binding waits for. -/
def parcel? (s : Follower κ ν) (b : Binding κ) : Option Parcel := b.request.bind s.mail.get?

/-- A poll, and whether it says that anything changed. -/
def polled (s : Follower κ ν) (b : Binding κ) : Binding.Move κ ν × Bool :=
  match s.parcel? b with
  | none => b.poll s.resource none s.inquiries.length
  | some (.arrived result) => b.poll s.resource (some result) s.inquiries.length
  | some .lost => b.pollLost s.resource s.inquiries.length

/-- The request whose result a poll collects. -/
def collects (s : Follower κ ν) (b : Binding κ) : Option Nat :=
  match s.parcel? b with
  | some (.arrived _) => b.request
  | _ => none

/-- What an order has the binding do. -/
def attend (s : Follower κ ν) (b : Binding κ) : Order κ → Turn κ ν
  | .setKey key id =>
    let (b, r) := b.setKey s.resource key id
    { move := { binding := b, resource := r } }
  | .setIncludes inc => { move := { binding := b.setIncludes inc, resource := s.resource } }
  | .setOptions options => { move := { binding := b.setOptions options, resource := s.resource } }
  | .poll => { move := (s.polled b).1, told := s.collects b }
  | .retry => { move := b.retry s.resource s.inquiries.length }
  | .reload => { move := b.reload s.resource s.inquiries.length }
  | .resolve =>
    let (b, r, started) := b.beginResolve s.resource
    { move := { binding := b, resource := r, started := started }
      resolving := started.map fun _ => s.inquiries.length }

/-- What the binding does when the result is there that its consumer waits for. -/
def conclude (s : Follower κ ν) (b : Binding κ) (n : Nat) (result : LoadResult) : Turn κ ν :=
  let (b, notices, _) := b.endResolve s.resource result
  { move := { binding := b, resource := s.resource, notices := notices }, told := some n }

/-- The turn that the binding takes, if it takes one. While its consumer waits for the data, the binding
is out of reach. -/
def turn? (s : Follower κ ν) : Op κ ν → Option (Binding κ × Turn κ ν)
  | .order o =>
    match s.binding, s.resolving with
    | some b, none => some (b, s.attend b o)
    | _, _ => none
  | .resolved =>
    match s.binding, s.resolving with
    | some b, some n => (s.answer? n).map fun result => (b, s.conclude b n result)
    | _, _ => none
  | _ => none

/-- What the consumer is told in a step. -/
def notices (s : Follower κ ν) (op : Op κ ν) : List (Notice ν) :=
  match s.turn? op with
  | some (_, t) => t.move.notices
  | none => []

end Follower

/-- The request made in a turn, if one is. -/
def Turn.inquiry {κ ν : Type} [EntryKey κ] (t : Turn κ ν) : Option (Inquiry κ) :=
  match t.move.binding.key, t.move.started with
  | some key, some started => some ⟨⟨key, t.move.binding.includes⟩, started⟩
  | _, _ => none

theorem Turn.inquiry_of_none {κ ν : Type} [EntryKey κ] {t : Turn κ ν} (h : t.move.started = none) :
    t.inquiry = none := by
  unfold inquiry
  rw [h]
  cases t.move.binding.key <;> rfl

theorem Turn.inquiry_of_some {κ ν : Type} [EntryKey κ] {t : Turn κ ν} {key : Key κ} {started : Started κ}
    (hkey : t.move.binding.key = some key) (h : t.move.started = some started) :
    t.inquiry = some ⟨⟨key, t.move.binding.includes⟩, started⟩ := by
  unfold inquiry
  rw [hkey, h]

/-- What goes on the record after a turn of a binding, in order; `n` is the number of the new request. -/
def Turn.happenings {κ ν : Type} [EntryKey κ] (t : Turn κ ν) (b : Binding κ) (n : Nat) :
    List Happening :=
  -- one poll may tell a result and then ask again
  (t.told.map Happening.told).toList
    ++ (if t.move.binding.key = b.key ∧ t.move.binding.includes = b.includes then [] else [.turned])
    ++ (t.inquiry.map fun _ => Happening.asked n).toList

namespace Follower

variable {κ ν : Type} [EntryKey κ]

/-- Take over what the binding did in its turn. -/
def take (s : Follower κ ν) (b : Binding κ) (t : Turn κ ν) : Follower κ ν :=
  { s with
    resource := t.move.resource
    -- a load that the binding begins is one among those of everybody
    pending := match t.move.started with
      | some started => (Outcome.started started).pending s.pending
      | none => s.pending
    binding := some t.move.binding
    inquiries := s.inquiries ++ t.inquiry.toList
    resolving := t.resolving
    history := s.history ++ t.happenings b s.inquiries.length }

/-- One step. What cannot happen now does nothing. -/
def step (s : Follower κ ν) (op : Op κ ν) : Follower κ ν :=
  match s.turn? op with
  | some (b, t) => s.take b t
  | none =>
    match op with
    | .giveUp => { s with resolving := none }
    | .drop =>
      match s.binding, s.resolving with
      | some b, none =>
        { s with
          resource := (b.release s.resource).2
          binding := none
          history := s.history ++ [.dropped] }
      | _, _ => s
    | .carry n =>
      -- a courier comes once, and not before the result is there
      match s.mail.get? n, s.answer? n with
      | none, some result => { s with mail := s.mail.set n (.arrived result) }
      | _, _ => s
    | .lose n =>
      match s.mail.get? n, s.inquiries[n]? with
      | none, some _ => { s with mail := s.mail.set n .lost }
      | _, _ => s
    | .use key id => { s with resource := s.resource.registerUse key id }
    | .free key id => { s with resource := (s.resource.freeUse key id).1 }
    | .work op =>
      let (r, outcome) := s.resource.apply (s.busy.change op)
      { s with
        resource := r
        pending := outcome.pending s.pending
        broken := outcome.broken s.broken
        ended := s.ended ++ outcome.ended.toList }
    | .order _ | .resolved => s

/-- Some steps, one after the other. -/
def run (s : Follower κ ν) (ops : List (Op κ ν)) : Follower κ ν := ops.foldl step s

/-- A binding that has just been made, on a resource that others work on. -/
def begun (r : Resource κ ν) (pending broken : List (PendingLoad κ)) (key : Option (Key κ)) (id : UseId)
    (inc : Includes) (options : BindingOptions) : Follower κ ν :=
  let (b, r) := ({} : Binding κ).setKey r key id
  { resource := r
    pending := pending
    broken := broken
    binding := some { b with includes := inc, options := options } }

/-- What a new binding can come to, on a resource in any state that it can come to. -/
inductive Reachable : Follower κ ν → Prop where
  | init {r : Resource κ ν} {pending broken : List (PendingLoad κ)}
      (h : Busy.Reachable (r.workedOn pending broken)) (key : Option (Key κ))
      (id : UseId) (inc : Includes) (options : BindingOptions) :
      Reachable (begun r pending broken key id inc options)
  | tail {s : Follower κ ν} (h : Reachable s) (op : Op κ ν) : Reachable (s.step op)

end Follower

/-! ## The record -/

/-- The record is in order, when `count` requests have been made: no result was told twice, and not that
of the request at the end. -/
structure Recorded (history : List Happening) (count : Nat) : Prop where
  numbered : ∀ n, .told n ∈ history → n < count
  once : (history.filterMap Happening.told?).Nodup
  untold : ∀ n, history.getLast? = some (.asked n) → .told n ∉ history

theorem mem_told {history : List Happening} {n : Nat} :
    n ∈ history.filterMap Happening.told? ↔ .told n ∈ history := by
  rw [List.mem_filterMap]
  constructor
  · rintro ⟨happening, hmem, htold⟩
    cases happening with
    | told m =>
        obtain rfl : m = n := Option.some.inj htold
        exact hmem
    | _ => cases htold
  · intro hmem
    exact ⟨.told n, hmem, rfl⟩

theorem told_concat {happening : Happening} (h : happening.told? = none) (history : List Happening) :
    (history ++ [happening]).filterMap Happening.told? = history.filterMap Happening.told? := by
  rw [List.filterMap_append, List.filterMap_cons_none h, List.filterMap_nil, List.append_nil]

namespace Recorded

variable {history : List Happening} {count : Nat}

/-- What ends the wait without telling anything. -/
theorem quit (h : Recorded history count) {happening : Happening}
    (hquit : happening = .turned ∨ happening = .dropped) :
    Recorded (history ++ [happening]) count := by
  have hnone : happening.told? = none := by rcases hquit with rfl | rfl <;> rfl
  refine ⟨fun n hmem => ?_, ?_, fun n hlast => ?_⟩
  · rw [← mem_told, told_concat hnone, mem_told] at hmem
    exact h.numbered n hmem
  · rw [told_concat hnone]
    exact h.once
  · rw [List.getLast?_concat] at hlast
    rcases hquit with rfl | rfl <;> cases hlast

theorem told (h : Recorded history count) {n : Nat} (hn : n < count)
    (hlast : history.getLast? = some (.asked n)) : Recorded (history ++ [.told n]) count := by
  refine ⟨fun m hmem => ?_, ?_, fun m hasked => ?_⟩
  · rcases List.mem_append.1 hmem with hin | hnew
    · exact h.numbered m hin
    · cases List.mem_singleton.1 hnew
      exact hn
  · rw [List.filterMap_append]
    refine List.nodup_append.2 ⟨h.once, List.nodup_singleton n, fun m hm m' hm' heq => ?_⟩
    -- the request is still at the end, so its result has not been told
    obtain rfl := List.mem_singleton.1 hm'
    exact h.untold m' hlast (heq ▸ mem_told.1 hm)
  · rw [List.getLast?_concat] at hasked
    cases hasked

theorem asked (h : Recorded history count) : Recorded (history ++ [.asked count]) (count + 1) := by
  have hnone : (Happening.asked count).told? = none := rfl
  have hold : ∀ n, .told n ∈ history ++ [.asked count] → n < count := by
    intro n hmem
    rw [← mem_told, told_concat hnone, mem_told] at hmem
    exact h.numbered n hmem
  refine ⟨fun n hmem => Nat.lt_succ_of_lt (hold n hmem), ?_, fun n hlast hmem => ?_⟩
  · rw [told_concat hnone]
    exact h.once
  · rw [List.getLast?_concat] at hlast
    cases hlast
    exact absurd (hold count hmem) (Nat.lt_irrefl count)

end Recorded

namespace Follower

variable {κ ν : Type} [EntryKey κ] {s : Follower κ ν}

/-- The request that is awaited, by the binding or in place of it. -/
def awaits (s : Follower κ ν) (b : Binding κ) : Option Nat := s.resolving.or b.request

/-- What holds of a binding at work. -/
structure Sound (s : Follower κ ν) : Prop where
  reachable : Busy.Reachable s.busy
  accounted : s.busy.Accounted s.ended
  orderly : ∀ b, s.binding = some b → b.Orderly
  /-- While its consumer waits for the data, the binding itself waits for nothing. -/
  aside : ∀ b, s.binding = some b → s.resolving ≠ none → b.request = none
  /-- A request waits for a load of what it was made for. -/
  known : ∀ q ∈ s.inquiries, q.started.IsFor q.signature (s.busy.known s.ended)
  /-- The request that is awaited is what the record ends with, and was made for what is followed. -/
  last : ∀ b n, s.binding = some b → s.awaits b = some n →
    s.history.getLast? = some (.asked n) ∧ ∃ q, s.inquiries[n]? = some q ∧ q.IsOf b
  recorded : Recorded s.history s.inquiries.length
  /-- A courier brings the result of its own request. -/
  honest : ∀ n result, s.mail.get? n = some (.arrived result) → s.answer? n = some result
  /-- Nothing happens to a binding that was dropped. -/
  gone : .dropped ∈ s.history → s.binding = none ∧ s.history.getLast? = some .dropped

/-- The part of the invariant that concerns the entries and the loads, kept by whatever a step does to
them. -/
theorem Sound.worked (h : Sound s) (op : Larder.Op κ ν) :
    Busy.Reachable (s.busy.step op)
      ∧ (s.busy.step op).Accounted (s.ended ++ (s.busy.change op).result.ended.toList)
      ∧ ∀ q ∈ s.inquiries, q.started.IsFor q.signature
          ((s.busy.step op).known (s.ended ++ (s.busy.change op).result.ended.toList)) := by
  refine ⟨h.reachable.tail op, ?_, fun q hq => ?_⟩
  · exact Busy.accounted_step (Busy.sound_reachable h.reachable) h.accounted op
  · exact (h.known q hq).mono (Busy.known_subset_step h.accounted op)

theorem answer?_mono {n : Nat} {result : LoadResult} (h : s.answer? n = some result)
    {s' : Follower κ ν} {later : List (Inquiry κ)} {ended : Ended κ}
    (hinquiries : s'.inquiries = s.inquiries ++ later) (hended : s'.ended = s.ended ++ ended) :
    s'.answer? n = some result := by
  unfold answer? at *
  obtain ⟨q, hq, hresult⟩ := Option.bind_eq_some_iff.1 h
  have hlt : n < s.inquiries.length := (List.getElem?_eq_some_iff.1 hq).1
  rw [hinquiries, hended, List.getElem?_append_left hlt, hq]
  exact Started.result?_append hresult ended

/-! ### A turn of the binding -/

section

variable {b : Binding κ} {t : Turn κ ν}

/-- A turn in which nothing is asked for leaves the cache. -/
theorem busy_take_of_none {uses : Uses κ} (hresource : t.move.resource = { s.resource with uses := uses })
    (hstarted : t.move.started = none) : (s.take b t).busy = s.busy := by
  unfold take busy Resource.workedOn
  dsimp only
  rw [hstarted, hresource]

/-- A turn in which a load is asked for is a step of the cache. -/
theorem busy_take_of_some {key : Key κ} {inc : Includes} {force : Bool}
    (hresource : t.move.resource = (s.resource.start key inc force).1)
    (hstarted : t.move.started = some (s.resource.start key inc force).2) :
    (s.take b t).busy = s.busy.step (.start key inc force) := by
  rw [Busy.step_eq]
  unfold take busy Resource.workedOn
  dsimp only
  rw [hstarted, hresource]
  rfl

theorem worked_take (h : Sound s) (hdeals : b.Deals s.resource s.inquiries.length t) :
    Busy.Reachable (s.take b t).busy ∧ (s.take b t).busy.Accounted s.ended
      ∧ ∀ q ∈ s.inquiries ++ t.inquiry.toList,
          q.started.IsFor q.signature ((s.take b t).busy.known s.ended) := by
  have hquiet : ∀ uses, t.move.resource = { s.resource with uses := uses } → t.move.started = none →
      Busy.Reachable (s.take b t).busy ∧ (s.take b t).busy.Accounted s.ended
        ∧ ∀ q ∈ s.inquiries ++ t.inquiry.toList,
            q.started.IsFor q.signature ((s.take b t).busy.known s.ended) := by
    intro uses hresource hstarted
    rw [busy_take_of_none hresource hstarted, Turn.inquiry_of_none hstarted, Option.toList_none,
      List.append_nil]
    exact ⟨h.reachable, h.accounted, h.known⟩
  cases hdeals with
  | keeps uses hresource hstarted _ _ _ _ => exact hquiet uses hresource hstarted
  | leaves uses hresource hstarted _ => exact hquiet uses hresource hstarted
  | asks key force hkey hresource hstarted _ =>
      obtain ⟨hreachable, haccounted, hknown⟩ := h.worked (.start key t.move.binding.includes force)
      -- asking for a load ends none
      have hended : s.ended ++ (s.busy.change
          (.start key t.move.binding.includes force)).result.ended.toList = s.ended :=
        List.append_nil s.ended
      rw [hended] at haccounted hknown
      rw [busy_take_of_some hresource hstarted, Turn.inquiry_of_some hkey hstarted]
      refine ⟨hreachable, haccounted, fun q hq => ?_⟩
      rcases List.mem_append.1 hq with hold | hnew
      · exact hknown q hold
      · obtain rfl := List.mem_singleton.1 hnew
        exact (Busy.isFor_start h.reachable key t.move.binding.includes force).mono fun load hload =>
          List.mem_append_left _ (List.mem_append_left _ hload)

theorem last_take (h : Sound s) (hb : s.binding = some b)
    (hdeals : b.Deals s.resource s.inquiries.length t) {n : Nat} (hn : t.awaits = some n) :
    (s.take b t).history.getLast? = some (.asked n)
      ∧ ∃ q, (s.take b t).inquiries[n]? = some q ∧ q.IsOf t.move.binding := by
  show (s.history ++ t.happenings b s.inquiries.length).getLast? = some (.asked n)
    ∧ ∃ q, (s.inquiries ++ t.inquiry.toList)[n]? = some q ∧ q.IsOf t.move.binding
  unfold Turn.happenings
  cases hdeals with
  | keeps _ _ hstarted hsame htold hkey hinc =>
      -- the request is the one that was awaited before, and nothing is put on record
      have hresolving : s.resolving = none := by
        by_contra hne
        rw [hsame, h.aside b hb hne] at hn
        cases hn
      have hbefore : s.awaits b = some n := by
        unfold awaits
        rw [hresolving, Option.none_or, ← hsame, hn]
      obtain ⟨hlast, q, hq, hof⟩ := h.last b n hb hbefore
      rw [htold, Turn.inquiry_of_none hstarted, if_pos ⟨hkey, hinc⟩]
      refine ⟨by simpa using hlast, q, by simpa using hq, ?_⟩
      unfold Inquiry.IsOf
      rw [hkey, hinc]
      exact hof
  | leaves _ _ _ hnone =>
      rw [hnone] at hn
      cases hn
  | asks key force hkey _ hstarted hnew =>
      rw [hnew] at hn
      cases hn
      rw [Turn.inquiry_of_some hkey hstarted, ← List.append_assoc]
      exact ⟨List.getLast?_concat, _, List.getElem?_concat_length, hkey, rfl⟩

theorem recorded_take (h : Sound s) (hb : s.binding = some b)
    (htold : ∀ n, t.told = some n → s.awaits b = some n) :
    Recorded (s.take b t).history (s.take b t).inquiries.length := by
  show Recorded (s.history ++ t.happenings b s.inquiries.length)
    (s.inquiries ++ t.inquiry.toList).length
  unfold Turn.happenings
  rw [← List.append_assoc, ← List.append_assoc, List.length_append]
  -- first the result is told, then something else is followed, then the new request is made
  have hfirst : Recorded (s.history ++ (t.told.map Happening.told).toList) s.inquiries.length := by
    cases hn : t.told with
    | none => simpa using h.recorded
    | some n =>
        obtain ⟨hlast, q, hq, _⟩ := h.last b n hb (htold n hn)
        exact h.recorded.told (List.getElem?_eq_some_iff.1 hq).1 hlast
  have hsecond : Recorded (s.history ++ (t.told.map Happening.told).toList
      ++ if t.move.binding.key = b.key ∧ t.move.binding.includes = b.includes then []
        else [.turned]) s.inquiries.length := by
    split
    · rw [List.append_nil]
      exact hfirst
    · exact hfirst.quit (Or.inl rfl)
  cases t.inquiry with
  | none => simpa using hsecond
  | some q => exact hsecond.asked

/-- A turn keeps the invariant if all it does with requests is one of the three, and what it tells is the
result of the request that was awaited. -/
theorem sound_take (h : Sound s) (hb : s.binding = some b)
    (hdeals : b.Deals s.resource s.inquiries.length t) (horderly : t.move.binding.Orderly)
    (haside : t.resolving ≠ none → t.move.binding.request = none)
    (htold : ∀ n, t.told = some n → s.awaits b = some n) : Sound (s.take b t) := by
  obtain ⟨hreachable, haccounted, hknown⟩ := worked_take h hdeals
  refine ⟨hreachable, haccounted, ?_, ?_, hknown, ?_, recorded_take h hb htold, ?_, ?_⟩
  · intro b' hb'
    cases hb'
    exact horderly
  · intro b' hb'
    cases hb'
    exact haside
  · intro b' n hb' hawaits
    cases hb'
    exact last_take h hb hdeals hawaits
  · intro n result hmail
    exact answer?_mono (h.honest n result hmail) rfl (List.append_nil s.ended).symm
  · intro hdropped
    exfalso
    have hnot : .dropped ∉ t.happenings b s.inquiries.length := by
      unfold Turn.happenings
      cases t.told <;> cases t.inquiry <;> split <;> simp
    rcases List.mem_append.1 hdropped with hold | hnew
    · rw [(h.gone hold).1] at hb
      cases hb
    · exact hnot hnew

end

/-! ### What the binding does in its turns -/

theorem polled_fst (s : Follower κ ν) (b : Binding κ) :
    ∃ b' result, (s.polled b).1 = (b'.poll s.resource result s.inquiries.length).1
      ∧ ((s.parcel? b = none ∧ b' = b ∧ result = none)
        ∨ (∃ r, s.parcel? b = some (.arrived r) ∧ b' = b ∧ result = some r)
        ∨ (s.parcel? b = some .lost ∧ b' = { b with request := none } ∧ result = none)) := by
  unfold polled
  cases hparcel : s.parcel? b with
  | none => exact ⟨b, none, rfl, Or.inl ⟨rfl, rfl, rfl⟩⟩
  | some parcel =>
      cases parcel with
      | arrived r => exact ⟨b, some r, rfl, Or.inr (Or.inl ⟨r, rfl, rfl, rfl⟩)⟩
      | lost => exact ⟨{ b with request := none }, none, rfl, Or.inr (Or.inr ⟨rfl, rfl, rfl⟩)⟩

theorem deals_attend {b : Binding κ} (s : Follower κ ν) (o : Order κ) :
    b.Deals s.resource s.inquiries.length (s.attend b o) := by
  cases o with
  | setKey key id =>
      simp only [attend]
      rcases b.setKey_eq s.resource key id with ⟨_, hset⟩ | ⟨uses, hset⟩
      · rw [hset]
        exact .keeps s.resource.uses rfl rfl rfl rfl rfl rfl
      · rw [hset]
        exact .leaves uses rfl rfl rfl
  | setIncludes inc =>
      simp only [attend]
      rcases b.setIncludes_eq inc with ⟨_, hset⟩ | hset
      · rw [hset]
        exact .keeps s.resource.uses rfl rfl rfl rfl rfl rfl
      · rw [hset]
        exact .leaves s.resource.uses rfl rfl rfl
  | setOptions options => exact .keeps s.resource.uses rfl rfl rfl rfl rfl rfl
  | poll =>
      obtain ⟨b', result, hmove, hparcel⟩ := s.polled_fst b
      refine Binding.deals_poll hmove rfl ?_
      rcases hparcel with ⟨hnone, rfl, rfl⟩ | ⟨r, _, rfl, rfl⟩ | ⟨_, rfl, rfl⟩
      · refine Or.inr ⟨rfl, ?_⟩
        unfold attend collects
        rw [hnone]
      · exact Or.inl (b'.request_collect s.resource r)
      · exact Or.inl rfl
  | retry => exact Binding.deals_ask rfl false
  | reload => exact Binding.deals_ask rfl true
  | resolve =>
      simp only [attend]
      rcases b.beginResolve_eq s.resource with ⟨_, hbegin⟩ | ⟨key, hkey, hbegin⟩
      · rw [hbegin]
        exact .keeps s.resource.uses rfl rfl rfl rfl rfl rfl
      · rw [hbegin]
        exact .asks key false hkey rfl rfl rfl

theorem orderly_attend {b : Binding κ} (h : b.Orderly) (s : Follower κ ν) (o : Order κ) :
    (s.attend b o).move.binding.Orderly := by
  cases o with
  | setKey key id =>
      have hbound := Binding.bound_setKey h.bound s.resource key id
      simp only [attend]
      rcases b.setKey_eq s.resource key id with ⟨_, hset⟩ | ⟨uses, hset⟩
      · rw [hset]
        exact h
      · rw [hset] at hbound ⊢
        exact ⟨hbound, fun _ => ⟨rfl, rfl⟩, Or.inl rfl⟩
  | setIncludes inc =>
      simp only [attend]
      rcases b.setIncludes_eq inc with ⟨_, hset⟩ | hset
      · rw [hset]
        exact h
      · rw [hset]
        exact ⟨h.bound, fun _ => ⟨rfl, rfl⟩, Or.inl rfl⟩
  | setOptions options => exact ⟨h.bound, h.idle, h.exclusive⟩
  | poll =>
      obtain ⟨b', result, hmove, hparcel⟩ := s.polled_fst b
      show (s.polled b).1.binding.Orderly
      rw [hmove]
      rcases hparcel with ⟨_, rfl, hnone⟩ | ⟨r, harrived, rfl, _⟩ | ⟨_, rfl, hnone⟩
      · exact Binding.orderly_poll h (Or.inl hnone)
      · refine Binding.orderly_poll h (Or.inr fun hnone => ?_)
        unfold parcel? at harrived
        rw [(h.idle hnone).1] at harrived
        cases harrived
      · have hlost : Binding.Orderly { b with request := none } :=
          ⟨h.bound, fun hkey => ⟨rfl, (h.idle hkey).2⟩, Or.inl rfl⟩
        exact Binding.orderly_poll hlost (Or.inl hnone)
  | retry => exact Binding.orderly_ask h false
  | reload => exact Binding.orderly_ask h true
  | resolve =>
      simp only [attend]
      rcases b.beginResolve_eq s.resource with ⟨_, hbegin⟩ | ⟨key, hkey, hbegin⟩
      · rw [hbegin]
        exact h
      · rw [hbegin]
        refine ⟨h.bound, fun hnone => ?_, Or.inl rfl⟩
        rw [hkey] at hnone
        cases hnone

theorem turn?_cases {op : Op κ ν} {b : Binding κ} {t : Turn κ ν} (hturn : s.turn? op = some (b, t)) :
    s.binding = some b
      ∧ ((∃ o, op = .order o ∧ s.resolving = none ∧ t = s.attend b o)
        ∨ ∃ n result, op = .resolved ∧ s.resolving = some n ∧ s.answer? n = some result
            ∧ t = s.conclude b n result) := by
  unfold turn? at hturn
  split at hturn
  · rename_i o
    split at hturn
    · rename_i b' hb hresolving
      cases hturn
      exact ⟨hb, Or.inl ⟨o, rfl, hresolving, rfl⟩⟩
    · cases hturn
  · split at hturn
    · rename_i b' n hb hresolving
      obtain ⟨result, hresult, heq⟩ := Option.map_eq_some_iff.1 hturn
      cases heq
      exact ⟨hb, Or.inr ⟨n, result, rfl, hresolving, hresult, rfl⟩⟩
    · cases hturn
  · cases hturn

/-- What a poll collects has been brought for the request that the binding waits for. -/
theorem collects_eq_some {b : Binding κ} {n : Nat} (h : s.collects b = some n) :
    b.request = some n ∧ ∃ result, s.parcel? b = some (.arrived result)
      ∧ s.mail.get? n = some (.arrived result) := by
  unfold collects at h
  split at h
  · rename_i result hparcel
    refine ⟨h, result, hparcel, ?_⟩
    unfold parcel? at hparcel
    rw [h] at hparcel
    exact hparcel
  · cases h

/-- What a turn tells is the result of the request that was awaited. -/
theorem told_turn (h : Sound s) {op : Op κ ν} {b : Binding κ} {t : Turn κ ν} {n : Nat}
    (hturn : s.turn? op = some (b, t)) (htold : t.told = some n) :
    s.awaits b = some n ∧ ∃ result, s.answer? n = some result
      ∧ t.move.notices = (b.collect s.resource (some result)).2
      ∧ t.move.binding.exception = (b.collect s.resource (some result)).1.exception := by
  obtain ⟨_, ⟨o, _, hresolving, rfl⟩ | ⟨m, result, _, hresolving, hresult, rfl⟩⟩ := turn?_cases hturn
  · cases o with
    | poll =>
        obtain ⟨hrequest, result, hparcel, hmail⟩ := collects_eq_some htold
        have hmove : (s.polled b) = b.poll s.resource (some result) s.inquiries.length := by
          unfold polled
          rw [hparcel]
        refine ⟨?_, result, h.honest n result hmail, ?_⟩
        · unfold awaits
          rw [hresolving, Option.none_or, hrequest]
        · show (s.polled b).1.notices = _ ∧ (s.polled b).1.binding.exception = _
          rw [hmove]
          exact b.poll_collects s.resource (some result) s.inquiries.length
    | _ => cases htold
  · obtain rfl : m = n := Option.some.inj htold
    refine ⟨?_, result, hresult, ?_⟩
    · unfold awaits
      rw [hresolving, Option.some_or]
    · rcases result with f | _ <;> exact ⟨rfl, rfl⟩

/-- A turn that tells no result tells nothing, and a poll that tells no result leaves the failure that is
held, if one is. -/
theorem untold_attend {b : Binding κ} {o : Order κ} (htold : (s.attend b o).told = none) :
    (s.attend b o).move.notices = []
      ∧ (o = .poll → (s.attend b o).move.binding.exception = b.exception) := by
  have hask : ∀ (b : Binding κ) (force : Bool),
      (b.ask s.resource force s.inquiries.length).notices = [] := by
    intro b force
    unfold Binding.ask
    split <;> rfl
  cases o with
  | poll =>
      obtain ⟨b', result, hmove, hparcel⟩ := s.polled_fst b
      show (s.polled b).1.notices = [] ∧ (_ → (s.polled b).1.binding.exception = _)
      obtain ⟨hnotices, hexception⟩ := b'.poll_collects s.resource result s.inquiries.length
      rw [hmove, hnotices, hexception]
      rcases hparcel with ⟨_, rfl, rfl⟩ | ⟨r, harrived, rfl, rfl⟩ | ⟨_, rfl, rfl⟩
      · exact ⟨rfl, fun _ => rfl⟩
      · -- what arrives is that of a request, so something is told
        have hnone : b'.request = none := by
          simp only [attend, collects, harrived] at htold
          exact htold
        unfold parcel? at harrived
        rw [hnone] at harrived
        cases harrived
      · exact ⟨rfl, fun _ => rfl⟩
  | retry => exact ⟨hask _ false, fun h => by cases h⟩
  | reload => exact ⟨hask _ true, fun h => by cases h⟩
  | _ => exact ⟨rfl, fun h => by cases h⟩

theorem aside_attend {b : Binding κ} {o : Order κ} (h : (s.attend b o).resolving ≠ none) :
    (s.attend b o).move.binding.request = none := by
  cases o with
  | resolve =>
      simp only [attend] at h ⊢
      rcases b.beginResolve_eq s.resource with ⟨_, hbegin⟩ | ⟨key, _, hbegin⟩
      · rw [hbegin] at h
        exact absurd rfl h
      · rw [hbegin]
  | _ => exact absurd rfl h

/-! ### Every step -/

theorem step_of_turn {op : Op κ ν} {b : Binding κ} {t : Turn κ ν} (hturn : s.turn? op = some (b, t)) :
    s.step op = s.take b t := by
  unfold step
  rw [hturn]

theorem sound_turn (h : Sound s) {op : Op κ ν} {b : Binding κ} {t : Turn κ ν}
    (hturn : s.turn? op = some (b, t)) : Sound (s.take b t) := by
  have htold : ∀ n, t.told = some n → s.awaits b = some n := fun n hn => (told_turn h hturn hn).1
  obtain ⟨hb, ⟨o, _, _, rfl⟩ | ⟨n, result, _, hresolving, _, rfl⟩⟩ := turn?_cases hturn
  · exact sound_take h hb (s.deals_attend o) (orderly_attend (h.orderly b hb) s o) aside_attend htold
  · -- the binding was aside, so with the end of the wait nothing is awaited any more
    have hnone : b.request = none := h.aside b hb (by rw [hresolving]; exact Option.some_ne_none n)
    have hrequest : (b.endResolve s.resource result).1.request = none := by
      rcases result with f | _ <;> exact hnone
    have hkeeps := b.keeps_endResolve s.resource result
    refine sound_take h hb (.leaves s.resource.uses rfl rfl hrequest) ?_ (fun hne => absurd rfl hne) htold
    refine ⟨hkeeps.bound (h.orderly b hb).bound, fun hnone => ?_, Or.inl hrequest⟩
    obtain ⟨_, q, _, hof⟩ := h.last b n hb (htold n rfl)
    cases hof.1.symm.trans (hkeeps.key.symm.trans hnone)

/-- Another courier comes, and what it brings is the result of its request. -/
theorem Sound.mailed (h : Sound s) {n : Nat} {parcel : Parcel}
    (hparcel : ∀ result, parcel = .arrived result → s.answer? n = some result) :
    Sound { s with mail := s.mail.set n parcel } :=
  { h with
    honest := by
      intro m result hmail
      change (s.mail.set n parcel).get? m = _ at hmail
      rw [Table.get?_set] at hmail
      split at hmail
      · rename_i hm
        subst hm
        exact hparcel result (Option.some.inj hmail)
      · exact h.honest m result hmail }

/-- **The invariant is kept by every step.** -/
theorem sound_step (h : Sound s) (op : Op κ ν) : Sound (s.step op) := by
  cases hturn : s.turn? op with
  | some bt =>
      obtain ⟨b, t⟩ := bt
      rw [step_of_turn hturn]
      exact sound_turn h hturn
  | none =>
      unfold step
      rw [hturn]
      dsimp only
      cases op with
      | order o => exact h
      | resolved => exact h
      | use key id => exact { h with }
      | free key id => exact { h with }
      | giveUp =>
          refine { h with aside := fun b _ hne => absurd rfl hne, last := fun b n hb hawaits => ?_ }
          refine h.last b n hb ?_
          -- had the consumer waited in place of the binding, the binding would wait for nothing
          cases hresolving : s.resolving with
          | none =>
              unfold awaits
              rw [hresolving]
              exact hawaits
          | some m =>
              change b.request = some n at hawaits
              rw [h.aside b hb (by rw [hresolving]; exact Option.some_ne_none m)] at hawaits
              cases hawaits
      | drop =>
          dsimp only
          split
          · rename_i b hb hresolving
            obtain ⟨uses, hrelease⟩ := b.release_eq s.resource
            rw [hrelease]
            -- what is said of the binding is void now, and the record ends with the drop
            exact { h with
              orderly := fun b' hb' => by cases hb'
              aside := fun b' hb' => by cases hb'
              last := fun b' n hb' => by cases hb'
              recorded := h.recorded.quit (Or.inr rfl)
              gone := fun _ => ⟨rfl, List.getLast?_concat⟩ }
          · exact h
      | carry n =>
          dsimp only
          split
          · rename_i result _ hresult
            exact h.mailed fun r hr => by
              cases hr
              exact hresult
          · exact h
      | lose n =>
          dsimp only
          split
          · exact h.mailed fun r hr => by cases hr
          · exact h
      | work op =>
          -- results are only added, so what couriers have brought remains right
          obtain ⟨hreachable, haccounted, hknown⟩ := h.worked op
          rw [Busy.step_eq] at hreachable haccounted hknown
          exact { h with
            reachable := hreachable
            accounted := haccounted
            known := hknown
            honest := fun n result hmail =>
              answer?_mono (h.honest n result hmail) (List.append_nil s.inquiries).symm rfl }

theorem sound_begun {r : Resource κ ν} {pending broken : List (PendingLoad κ)}
    (h : Busy.Reachable (r.workedOn pending broken)) (key : Option (Key κ)) (id : UseId) (inc : Includes)
    (options : BindingOptions) : Sound (begun r pending broken key id inc options) := by
  let b₀ : Binding κ := {}
  have hbound : (b₀.setKey r key id).1.Bound := Binding.bound_setKey (b := b₀) rfl r key id
  have hset : (b₀.setKey r key id).1.request = none ∧ (b₀.setKey r key id).1.exception = none
      ∧ ∃ uses, (b₀.setKey r key id).2 = { r with uses := uses } := by
    rcases b₀.setKey_eq r key id with ⟨_, hset⟩ | ⟨uses, hset⟩
    · rw [hset]
      exact ⟨rfl, rfl, r.uses, rfl⟩
    · rw [hset]
      exact ⟨rfl, rfl, uses, rfl⟩
  obtain ⟨hrequest, hexception, uses, hresource⟩ := hset
  have hbegun : begun r pending broken key id inc options
      = { resource := { r with uses := uses }
          pending := pending
          broken := broken
          binding := some { (b₀.setKey r key id).1 with includes := inc, options := options } } := by
    rw [← hresource]
    rfl
  rw [hbegun]
  exact {
    reachable := h
    accounted := Busy.accounted_reachable h
    orderly := by
      intro b hb
      cases hb
      exact ⟨hbound, fun _ => ⟨hrequest, hexception⟩, Or.inl hrequest⟩
    aside := fun _ _ hne => absurd rfl hne
    known := fun q hq => absurd hq List.not_mem_nil
    last := by
      intro b n hb hawaits
      cases hb
      cases hrequest.symm.trans hawaits
    recorded := ⟨fun n hn => absurd hn List.not_mem_nil, List.nodup_nil, fun n hn => by cases hn⟩
    honest := fun n result hmail => by cases hmail
    gone := fun hn => absurd hn List.not_mem_nil }

theorem sound_reachable (hs : Reachable s) : Sound s := by
  induction hs with
  | init h key id inc options => exact sound_begun h key id inc options
  | tail _ op ih => exact sound_step ih op

/-- A new binding on a new resource. -/
theorem reachable_new (name : String) (policy : Policy κ ν) (key : Option (Key κ)) (id : UseId)
    (inc : Includes) (options : BindingOptions) :
    Reachable (begun { name := name, policy := policy } [] [] key id inc options) :=
  .init (r := { name := name, policy := policy }) (.init name policy) key id inc options

theorem Reachable.run (hs : Reachable s) (ops : List (Op κ ν)) : Reachable (s.run ops) := by
  induction ops generalizing s with
  | nil => exact hs
  | cons op ops ih => exact ih (hs.tail op)

/-- Unless the binding takes a turn or is dropped, a step leaves it alone. -/
theorem step_aside {op : Op κ ν} (hturn : s.turn? op = none) (hdrop : op ≠ .drop) :
    (s.step op).binding = s.binding ∧ (s.step op).inquiries = s.inquiries
      ∧ (s.step op).history = s.history := by
  unfold step
  rw [hturn]
  cases op with
  | drop => exact absurd rfl hdrop
  | carry n =>
      dsimp only
      split <;> exact ⟨rfl, rfl, rfl⟩
  | lose n =>
      dsimp only
      split <;> exact ⟨rfl, rfl, rfl⟩
  | _ => exact ⟨rfl, rfl, rfl⟩

/-- What is on record stays there. -/
theorem history_step (s : Follower κ ν) (op : Op κ ν) : s.history <+: (s.step op).history := by
  cases hturn : s.turn? op with
  | some bt =>
      obtain ⟨b, t⟩ := bt
      rw [step_of_turn hturn]
      exact List.prefix_append _ _
  | none =>
      by_cases hdrop : op = .drop
      · subst hdrop
        unfold step
        rw [hturn]
        dsimp only
        split
        · exact List.prefix_append _ _
        · exact List.prefix_rfl
      · exact ⟨[], by rw [List.append_nil, (step_aside hturn hdrop).2.2]⟩

theorem history_run (s : Follower κ ν) (ops : List (Op κ ν)) : s.history <+: (s.run ops).history := by
  induction ops generalizing s with
  | nil => exact List.prefix_rfl
  | cons op ops ih => exact (s.history_step op).trans (ih (s.step op))

/-! ## What is told -/

/-- The failure that the binding holds. -/
def exception? (s : Follower κ ν) : Option Failure := s.binding.bind Binding.exception

/-- A step that tells the consumer something, or a poll that changes the failure, tells a result. -/
theorem exists_told {op : Op κ ν}
    (h : s.notices op ≠ [] ∨ op = .order .poll ∧ (s.step op).exception? ≠ s.exception?) :
    ∃ b t n, s.turn? op = some (b, t) ∧ t.told = some n ∧ s.notices op = t.move.notices := by
  cases hturn : s.turn? op with
  | none =>
      exfalso
      rcases h with hnotices | ⟨rfl, hexception⟩
      · refine hnotices ?_
        unfold notices
        rw [hturn]
      · refine hexception ?_
        unfold step
        rw [hturn]
  | some bt =>
      obtain ⟨b, t⟩ := bt
      have hnotices : s.notices op = t.move.notices := by
        unfold notices
        rw [hturn]
      cases htold : t.told with
      | some n => exact ⟨b, t, n, rfl, htold, hnotices⟩
      | none =>
          exfalso
          obtain ⟨hb, ⟨o, rfl, _, rfl⟩ | ⟨n, _, _, _, _, rfl⟩⟩ := turn?_cases hturn
          · obtain ⟨hnil, hsame⟩ := untold_attend htold
            rcases h with hne | ⟨horder, hne⟩
            · exact hne (hnotices.trans hnil)
            · cases horder
              refine hne ?_
              rw [step_of_turn hturn]
              show (s.attend b .poll).move.binding.exception = s.binding.bind Binding.exception
              rw [hsame rfl, hb]
              rfl
          · cases htold

/--
**Only the result of the last request is told, and no result twice.**

In every state that a binding can come to, whatever is done to it and to its resource and in whatever
order loads end and couriers come: no request stands on record as told more than once; a binding that
was dropped tells nothing any more. If a step tells the consumer anything, or if a poll changes the
failure that the binding holds, then the record ends with a request of the binding, so that since it was
made the binding has not turned, asked or told. The request was made for the key and the includes that
the binding follows now; what the load of these came to is there; this is what the binding collects, and
what the consumer is told; and it goes on the record.
-/
theorem delivers_last_request (hs : Reachable s) :
    (s.history.filterMap Happening.told?).Nodup
      ∧ (.dropped ∈ s.history → ∀ ops op, (s.run ops).notices op = [])
      ∧ ∀ op, (s.notices op ≠ [] ∨ op = .order .poll ∧ (s.step op).exception? ≠ s.exception?) →
        ∃ b n q result, s.binding = some b ∧ s.history.getLast? = some (.asked n)
          ∧ s.inquiries[n]? = some q ∧ q.IsOf b
          ∧ q.started.Yields q.signature s.ended result
          ∧ s.notices op = (b.collect s.resource (some result)).2
          ∧ (s.step op).exception? = (b.collect s.resource (some result)).1.exception
          ∧ ∃ later, (s.step op).history = s.history ++ .told n :: later := by
  have hsound := sound_reachable hs
  refine ⟨hsound.recorded.once, fun hdropped ops op => ?_, fun op h => ?_⟩
  · -- the record only grows, so after any further run there is still no binding
    have hgone := (sound_reachable (hs.run ops)).gone ((s.history_run ops).subset hdropped)
    unfold notices turn?
    rw [hgone.1]
    cases op <;> rfl
  · obtain ⟨b, t, n, hturn, htold, hnotices⟩ := exists_told h
    obtain ⟨hawaits, result, hresult, htells, hexception⟩ := told_turn hsound hturn htold
    have hb := (turn?_cases hturn).1
    obtain ⟨hlast, q, hq, hof⟩ := hsound.last b n hb hawaits
    have hyields : q.started.Yields q.signature s.ended result := by
      refine hsound.accounted.yields (hsound.known q (List.mem_of_getElem? hq)) ?_
      unfold answer? at hresult
      rw [hq] at hresult
      exact hresult
    refine ⟨b, n, q, result, hb, hlast, hq, hof, hyields, hnotices.trans htells, ?_, ?_⟩
    · rw [step_of_turn hturn]
      exact hexception
    · rw [step_of_turn hturn]
      show ∃ later, s.history ++ t.happenings b s.inquiries.length = s.history ++ .told n :: later
      unfold Turn.happenings
      rw [htold]
      exact ⟨_, rfl⟩

/-- A key is followed, then another, and the loads of both end, the first one last. Of the results that the
couriers bring a poll tells the one of the second request, for the key that is followed now. -/
theorem delivers_last_request_switched :
    let s := (begun ({ name := "entries" } : Resource String Nat) [] [] (some (.single "a")) 0 .none {}).run
      [.order .poll, .order (.setKey (some (.single "b")) 1), .order .poll,
        .work (.commit 2 ⟨0, 0⟩ (.ok [("b", 20)])), .work (.commit 1 ⟨0, 0⟩ (.ok [("a", 10)])),
        .carry 0, .carry 1]
    s.history = [.asked 0, .turned, .asked 1] ∧ s.notices (.order .poll) = [.data (.many [20])]
      ∧ ∃ q, s.inquiries[1]? = some q ∧ q.signature.key = .single "b"
        ∧ ∃ later, (s.step (.order .poll)).history = s.history ++ .told 1 :: later := by
  intro s
  have hhistory : s.history = [.asked 0, .turned, .asked 1] := by decide +kernel
  have hnotices : s.notices (.order .poll) = [.data (.many [20])] := by rfl
  have hfollowed : s.binding.bind Binding.key = some (.single "b") := by decide +kernel
  have hs : Reachable s := (reachable_new "entries" {} _ _ _ _).run _
  obtain ⟨b, n, q, _, hb, hlast, hq, hof, _, _, _, hlater⟩ :=
    (delivers_last_request hs).2.2 (.order .poll) (Or.inl (by rw [hnotices]; exact List.cons_ne_nil _ _))
  rw [hhistory] at hlast
  obtain rfl : 1 = n := by simpa using hlast
  rw [hb] at hfollowed
  refine ⟨hhistory, hnotices, q, hq, ?_, hlater⟩
  exact Option.some.inj (hof.1.symm.trans hfollowed)

end Follower

end Larder
