import Larder.Proofs.FieldGroups
import Larder.Proofs.Purging
import Larder.Proofs.Requests

/-!
# When a binding comes to rest

A binding loads its key when the key is outdated, and asks again at the next poll if it still is. So a
load that succeeds should leave the key fresh, or the binding never rests and the service is asked for
the same thing at every tick.

For keys by name this holds because a load marks what it was asked for, and for all teams because it
removes what the answer lacks. The teams with a permission are found among those that are cached
afterwards. The load marks the alias and the teams of the answer; a cached team that the answer lacks
stays, and if it was outdated it stays outdated. `Teams.LeavesStale` says when that happens, and
`rests_after_load_iff` that it is the only case in which the binding does not rest.
-/

namespace Larder

/-! ## What is outdated after a load -/

namespace Ledger

variable {κ : Type} [DecidableEq κ]

theorem isOutdated_eq (l : Ledger κ) (t : Target κ) (inc : Includes) :
    l.isOutdated t inc = (l.metaOf t).isStale inc := by
  unfold isOutdated metaOf
  cases l.meta? t <;> rfl

/-- The start of a load makes nothing outdated and nothing fresh. -/
theorem isOutdated_startLoad (l : Ledger κ) (s : Signature κ) (load : InFlight κ) (t : Target κ)
    (inc : Includes) : (l.startLoad s load).isOutdated t inc = l.isOutdated t inc := by
  have hfold : ∀ (ts : List (Target κ)) (l : Ledger κ),
      (ts.foldl beginAt l).isOutdated t inc = l.isOutdated t inc := by
    intro ts
    induction ts with
    | nil => intro l; rfl
    | cons u ts ih =>
        intro l
        rw [List.foldl_cons, ih, isOutdated_eq, isOutdated_eq, beginAt, metaOf_setMeta]
        by_cases hu : u = t
        · subst hu
          rw [if_pos rfl]
          rfl
        · rw [if_neg hu]
  exact hfold load.targets l

end Ledger

namespace Cache

variable {κ ν : Type} [EntryKey κ] {c : Cache κ ν} {p : Policy κ ν} {now : Instant}
  {load : PendingLoad κ} {entries : List (κ × ν)}

/-- A load that nothing has come in between leaves outdated what it removes and, of all that it neither
was asked for nor brings, what was outdated before. -/
theorem isOutdated_commit_of_blank (name : String) (hc : (c.commitWrites p now load entries).complete = true)
    (hblank : ∀ t, c.ledger.isInvalidated t load.seq = false) (t : Target κ) :
    (c.commit name p now load (.ok entries)).cache.ledger.isOutdated t load.signature.includes = true
      ↔ t ∉ load.signature.key.requested ∧ t ∉ (entries.map Prod.fst).map Target.key
        ∧ (t ∈ (c.commitDrops load entries).map Target.key
          ∨ c.ledger.isOutdated t load.signature.includes = true) := by
  have hwritten : t ∈ (c.commitWrites p now load entries).keys.map Target.key
      ↔ t ∈ (entries.map Prod.fst).map Target.key := by
    cases t with
    | named a =>
        exact iff_of_false (Target.named_not_mem_map a _) (Target.named_not_mem_map a _)
    | key k =>
        have hs := mt Ledger.isInvalidated_of_isSuperseded (Bool.eq_false_iff.1 (hblank (.key k)))
        rw [Target.key_mem_map, Target.key_mem_map, mem_commitWrites hc]
        exact and_iff_left (Bool.eq_false_iff.2 hs)
  rw [Ledger.isOutdated_eq, metaOf_commit name hc]
  by_cases hanswers : t ∈ (c.commitWrites p now load entries).keys.map Target.key
      ∨ t ∈ load.signature.key.requested
  · -- what is answered for is fresh for the includes of the load
    rw [if_pos ⟨hanswers, hblank t⟩, EntryMeta.isStale_afterLoad]
    refine iff_of_false (fun h => by cases h) fun h => ?_
    exact hanswers.elim (fun hin => h.2.1 (hwritten.1 hin)) h.1
  · rw [if_neg fun h => hanswers h.1, ← EntryMeta.isStale_atRest]
    have hleft : t ∉ load.signature.key.requested ∧ t ∉ (entries.map Prod.fst).map Target.key :=
      ⟨fun h => hanswers (Or.inr h), fun h => hanswers (Or.inl (hwritten.2 h))⟩
    by_cases hdrop : t ∈ (c.commitDrops load entries).map Target.key
    · obtain ⟨k, hk, rfl⟩ := List.mem_map.1 hdrop
      rw [metaOf_removeAll_of_mem hk]
      exact iff_of_true rfl ⟨hleft.1, hleft.2, Or.inl hdrop⟩
    · rw [atRest_commitBase hdrop, EntryMeta.isStale_atRest, ← Ledger.isOutdated_eq]
      exact ⟨fun h => ⟨hleft.1, hleft.2, Or.inr h⟩, fun h => h.2.2.resolve_left hdrop⟩

/-! ## A load that nothing comes in between -/

/-- The cache with the next load of a key started. -/
def underway (c : Cache κ ν) (key : Key κ) (inc : Includes) : Cache κ ν :=
  { c with ledger := c.ledger.draw.startLoad ⟨key, inc⟩ ⟨c.ledger.seq + 1, c.targets key⟩ }

/-- What the next load of a key comes to, if nothing happens while it is under way. -/
def reload (c : Cache κ ν) (name : String) (p : Policy κ ν) (now : Instant) (key : Key κ)
    (inc : Includes) (entries : List (κ × ν)) : Change κ ν Committed :=
  (c.underway key inc).commit name p now (c.nextLoad key inc) (.ok entries)

theorem resolvers_reload (c : Cache κ ν) (name : String) (p : Policy κ ν) (now : Instant) (key : Key κ)
    (inc : Includes) (entries : List (κ × ν)) :
    (c.reload name p now key inc entries).cache.resolvers = c.resolvers :=
  resolvers_commit (c.underway key inc) name p now _ (.ok entries)

/-- For a load that is still to start, nothing is invalidated. -/
def Blank (c : Cache κ ν) : Prop := ∀ t n, c.ledger.seq ≤ n → c.ledger.isInvalidated t n = false

section

variable {key : Key κ} {inc : Includes} {k : κ}

theorem Blank.not_isInvalidated (h : c.Blank) (key : Key κ) (inc : Includes) (t : Target κ) :
    (c.underway key inc).ledger.isInvalidated t (c.nextLoad key inc).seq = false := by
  show (c.ledger.draw.startLoad _ _).isInvalidated t (c.ledger.seq + 1) = false
  rw [Ledger.isInvalidated_startLoad, Ledger.isInvalidated_draw]
  exact h t _ (Nat.le_succ _)

theorem Blank.not_isSuperseded (h : c.Blank) (key : Key κ) (inc : Includes) (k : κ) :
    (c.underway key inc).ledger.isSuperseded k (c.nextLoad key inc).seq = false :=
  Bool.eq_false_iff.2 (mt Ledger.isInvalidated_of_isSuperseded
    (Bool.eq_false_iff.1 (h.not_isInvalidated key inc (.key k))))

/-- A key that the answer lacks is removed by a load of everything, and else left as it is. -/
theorem Blank.data_reload (h : c.Blank) (name : String) (p : Policy κ ν) (now : Instant)
    (hk : k ∉ entries.map Prod.fst) :
    (c.reload name p now key inc entries).cache.data.get? k
      = if key.isAll = true then none else c.data.get? k :=
  data_commit_of_not_mem name p now hk (h.not_isSuperseded key inc k)

/-- A record that the answer has nothing to say on is as outdated as it was. -/
theorem Blank.isOutdated_reload (h : c.Blank) (name : String) (hp : p.Total) (now : Instant)
    (t : Target κ) :
    (c.reload name p now key inc entries).cache.ledger.isOutdated t inc = true
      ↔ t ∉ key.requested ∧ t ∉ (entries.map Prod.fst).map Target.key
        ∧ (t ∈ ((c.underway key inc).commitDrops (c.nextLoad key inc) entries).map Target.key
          ∨ c.ledger.isOutdated t inc = true) := by
  have hcomplete : ((c.underway key inc).commitWrites p now (c.nextLoad key inc) entries).complete = true :=
    complete_commitWrites hp
  have hstart : (c.underway key inc).ledger.isOutdated t inc = c.ledger.isOutdated t inc :=
    Ledger.isOutdated_startLoad c.ledger.draw _ _ t inc
  rw [← hstart]
  exact isOutdated_commit_of_blank name hcomplete (h.not_isInvalidated key inc) t

/-- **A key is outdated after a load of it** exactly if it stands, by then, for something that was not
asked for by name, is not in the answer, and was outdated before or is removed. -/
theorem Blank.isOutdated_reload_key (h : c.Blank) (name : String) (hp : p.Total) (now : Instant) :
    (c.reload name p now key inc entries).cache.isOutdated key inc = true
      ↔ ∃ k ∈ (c.reload name p now key inc entries).cache.resolve key,
        k ∉ key.explicit ∧ k ∉ entries.map Prod.fst
          ∧ (k ∈ (c.underway key inc).commitDrops (c.nextLoad key inc) entries
            ∨ c.ledger.isOutdated (.key k) inc = true) := by
  rw [isOutdated_eq_any, List.any_eq_true]
  constructor
  · rintro ⟨t, ht, hout⟩
    obtain ⟨hasked, hmem, hcase⟩ := (h.isOutdated_reload name hp now t).1 hout
    rcases List.mem_append.1 ht with hkey | halias
    · obtain ⟨k, hk, rfl⟩ := List.mem_map.1 hkey
      exact ⟨k, hk, mt Key.key_mem_requested.2 hasked, mt Target.key_mem_map.2 hmem,
        hcase.imp_left Target.key_mem_map.1⟩
    · -- the alias itself was asked for
      exact absurd (List.mem_append_right _ halias) hasked
  · rintro ⟨k, hk, hasked, hmem, hcase⟩
    refine ⟨.key k, List.mem_append_left _ (List.mem_map_of_mem hk), ?_⟩
    exact (h.isOutdated_reload name hp now (.key k)).2 ⟨mt Key.key_mem_requested.1 hasked,
      mt Target.key_mem_map.1 hmem, hcase.imp_left Target.key_mem_map.2⟩

theorem result_reload {name : String} (hp : p.Total) :
    (c.reload name p now key inc entries).result = .success := by
  unfold reload
  rw [commit_ok, if_pos (complete_commitWrites hp)]

/-- The load has ended, so that the next one does not join it. -/
theorem joinable?_reload (c : Cache κ ν) (name : String) (p : Policy κ ν) (now : Instant) (key : Key κ)
    (inc : Includes) (entries : List (κ × ν)) :
    (c.reload name p now key inc entries).cache.ledger.joinable? ⟨key, inc⟩ = none := by
  have hslot : (c.reload name p now key inc entries).cache.ledger.inFlight.get? ⟨key, inc⟩ = none := by
    unfold reload
    rw [((c.underway key inc).turns_commit_ok name p now (c.nextLoad key inc) entries).inFlight]
    refine (Ledger.inFlight_finishLoad _ _ _ _ _).trans ?_
    show ((c.ledger.draw.startLoad _ _).inFlight.get? _).filter _ = none
    rw [Ledger.inFlight_startLoad, Table.get?_set, if_pos rfl]
    simp [nextLoad, Option.filter]
  unfold Ledger.joinable?
  rw [hslot]

end

end Cache

/-- A load that has begun is the next one of the cache. If it succeeds before anything else happens, it
comes to what its reload is. -/
theorem Resource.commit_of_begun {κ ν : Type} [EntryKey κ] {r : Resource κ ν} {key : Key κ}
    {inc : Includes} {load : PendingLoad κ} (h : (r.start key inc false).2 = .begun load) (now : Instant)
    (entries : List (κ × ν)) :
    load = r.cache.nextLoad key inc
      ∧ (r.start key inc false).1.commit now load (.ok entries)
        = (r.start key inc false).1.apply (r.cache.reload r.name r.policy now key inc entries) := by
  rcases r.cache.start_cases r.name r.policy key inc false with ⟨_, hnone⟩ | ⟨_, hstart⟩
  · exact absurd h (hnone load)
  · have hcache : (r.start key inc false).1.cache = r.cache.underway key inc := by
      unfold Resource.start Resource.apply
      rw [hstart]
      rfl
    have hload : load = r.cache.nextLoad key inc := by
      unfold Resource.start Resource.apply at h
      rw [hstart] at h
      exact (Started.begun.inj h).symm
    refine ⟨hload, ?_⟩
    unfold Resource.commit
    rw [hcache, hload]
    rfl

/-! ## Teams -/

theorem Shelf.mem_values {κ ν : Type} [EntryKey κ] {s : Shelf κ ν} {v : ν} :
    v ∈ s.values ↔ ∃ k, s.get? k = some v :=
  Table.mem_values (t := ⟨s.entries⟩) s.ascending.nodup

namespace Teams

/-- What the teams of a client can come to, by any steps at all in which the two aliases that teams have
keep their meaning. -/
inductive Reached : Busy String Team → Prop where
  /-- Nothing is cached. -/
  | init : Reached (empty.atWork [])
  /-- One more step. -/
  | tail {b : Busy String Team} (hb : Reached b) (op : Op String Team)
      (hop : ∀ name r, op = .register name r → name ≠ Alias.allName ∧ name ≠ withPermissionName) :
      Reached (b.step op)

/-- Ids and the two aliases, with any parameter, are the keys that teams have. -/
def Known (key : Key String) : Prop :=
  ∀ a, key.asAlias = some a → a.name = Alias.allName ∨ a.name = withPermissionName

/-- The aliases stand for all teams and for those with a permission, and teams are merged as teams. -/
structure Sane (b : Busy String Team) : Prop where
  /-- The policy is that of teams. -/
  policy : b.policy = Teams.policy
  /-- The alias for all stands for what is cached. -/
  all : b.cache.resolvers.get? Alias.allName = some fun _ data => data.keys
  /-- The other one stands for the cached teams that have a permission. -/
  permitted : b.cache.resolvers.get? withPermissionName = some permissionResolver

theorem Reached.reachable {b : Busy String Team} (hb : Reached b) : Busy.Reachable b := by
  induction hb with
  | init => exact (Busy.Reachable.init "teams" policy).tail (.register withPermissionName permissionResolver)
  | tail _ op _ ih => exact ih.tail op

theorem Reached.sane {b : Busy String Team} (hb : Reached b) : Sane b := by
  induction hb with
  | init => exact ⟨rfl, rfl, rfl⟩
  | @tail b _ op hop ih =>
      refine ⟨(b.policy_step op).trans ih.policy, ?_, ?_⟩
      · rw [b.resolver_step fun r heq => (hop Alias.allName r heq).1 rfl]
        exact ih.all
      · rw [b.resolver_step fun r heq => (hop withPermissionName r heq).2 rfl]
        exact ih.permitted

/-- Loads and operations on teams, in any order, lead nowhere else. -/
theorem Desk.reached_run (moves : List Move) : Reached (({} : Desk).run moves).busy := by
  have key : ∀ (moves : List Move) {d : Desk}, d.resource.policy = Teams.policy → Reached d.busy →
      Reached (d.run moves).busy := by
    intro moves
    induction moves with
    | nil => exact fun _ h => h
    | cons m moves ih =>
        intro d hp h
        refine ih (policy_step hp m) ((step_does hp m).keeps (fun b op hdoes hb => ?_) h)
        refine hb.tail op fun name r heq => ?_
        subst heq
        cases hdoes
  exact key moves rfl .init

/-- The answer leaves a team stale that the key stands for: a cached team with the permission that was
outdated and that the answer lacks. -/
def LeavesStale (c : Cache String Team) (key : Key String) (inc : Includes)
    (answer : List (String × Team)) : Prop :=
  ∃ p id team, key = withPermission p ∧ c.data.get? id = some team ∧ p ∈ team.permissions
    ∧ id ∉ answer.map Prod.fst ∧ team.teamId ∉ answer.map Prod.fst
    ∧ c.ledger.isOutdated (.key team.teamId) inc = true

/-- A team is cached under its own id once a load has written it, or else it was there before. -/
theorem teamId_writeLoaded {now : Instant} {inc : Includes} {seq : Nat}
    {entries : List (String × Team)} (hentries : ∀ e ∈ entries, e.2.teamId = e.1)
    {c : Cache String Team} {id : String} {team : Team}
    (h : (Cache.writeLoaded policy now inc seq entries c).cache.data.get? id = some team) :
    team.teamId = id ∨ id ∉ (Cache.writeLoaded policy now inc seq entries c).keys
      ∧ c.data.get? id = some team := by
  fun_induction Cache.writeLoaded policy now inc seq entries c with
  | case1 c => exact Or.inr ⟨List.not_mem_nil, h⟩
  | case2 k v rest c hk ih => exact ih (fun e he => hentries e (List.mem_cons_of_mem _ he)) h
  | case3 k v rest c hk hw => exact Or.inr ⟨List.not_mem_nil, h⟩
  | case4 k v rest c hk c' hw w ih =>
      rcases ih (fun e he => hentries e (List.mem_cons_of_mem _ he)) h with hid | ⟨hnot, hbefore⟩
      · exact Or.inl hid
      · obtain ⟨merged, hmerged, rfl⟩ := Option.map_eq_some_iff.1 hw
        have hplaced : (c.data.insert k merged).get? id = some team := hbefore
        rw [Shelf.get?_insert] at hplaced
        by_cases hkid : k = id
        · -- merging keeps the id of the new team
          rw [if_pos hkid] at hplaced
          refine Or.inl ?_
          have hteam : Team.merge (c.data.get? k) v = team :=
            (Option.some.inj hmerged).trans (Option.some.inj hplaced)
          have hv : team.teamId = v.teamId := by
            rw [← hteam]
            unfold Team.merge
            cases c.data.get? k <;> rfl
          rw [hv, hentries (k, v) List.mem_cons_self, hkid]
        · rw [if_neg hkid] at hplaced
          refine Or.inr ⟨fun hmem => ?_, hplaced⟩
          rcases List.mem_cons.1 hmem with heq | hin
          · exact hkid heq.symm
          · exact hnot hin

/-- The teams that an alias with a permission stands for. -/
theorem mem_resolve_withPermission {c : Cache String Team}
    (hc : c.resolvers.get? withPermissionName = some permissionResolver) {p k : String} :
    k ∈ c.resolve (withPermission p)
      ↔ ∃ id team, c.data.get? id = some team ∧ p ∈ team.permissions ∧ team.teamId = k := by
  have hresolve : c.resolve (withPermission p)
      = (c.data.values.filter fun t => t.permissions.contains p).map Team.teamId :=
    Cache.resolve_byAlias (a := ⟨withPermissionName, some p⟩) hc
  rw [hresolve, List.mem_map]
  simp only [List.mem_filter, Shelf.mem_values, List.contains_iff_mem]
  constructor
  · rintro ⟨team, ⟨⟨id, hid⟩, hp⟩, hk⟩
    exact ⟨id, team, hid, hp, hk⟩
  · rintro ⟨id, team, hid, hp, hk⟩
    exact ⟨team, ⟨⟨id, hid⟩, hp⟩, hk⟩

theorem rejection_withPermission {c : Cache String Team} {r : Resolver String Team}
    (h : c.resolvers.get? withPermissionName = some r) (name : String) (policy : Policy String Team)
    (p : String) : c.rejection name policy (withPermission p) = none := by
  simp [Cache.rejection, withPermission, Key.asAlias, Table.contains, h]

section

variable {b : Busy String Team} {key : Key String} {inc : Includes} {entries : List (String × Team)}

theorem Reached.blank (hb : Reached b) : b.cache.Blank := (Busy.sound_reachable hb.reachable).blank

/-- A load of all teams removes those that the answer lacks, so that none is left outdated. -/
theorem not_isOutdated_reload_all (hb : Reached b) {a : Alias} (ha : a.name = Alias.allName)
    (now : Instant) :
    (b.cache.reload b.name policy now (.byAlias a) inc entries).cache.isOutdated (.byAlias a) inc
      = false := by
  rw [Bool.eq_false_iff]
  intro hout
  obtain ⟨k, hk, _, hmem, _⟩ := (hb.blank.isOutdated_reload_key b.name total_policy now).1 hout
  have hkeys : (b.cache.reload b.name policy now (.byAlias a) inc entries).cache.resolve (.byAlias a)
      = (b.cache.reload b.name policy now (.byAlias a) inc entries).cache.data.keys := by
    have hresolver : (b.cache.reload b.name policy now (.byAlias a) inc entries).cache.resolvers.get?
        a.name = some fun _ data => data.keys := by
      rw [ha, Cache.resolvers_reload]
      exact hb.sane.all
    exact Cache.resolve_byAlias hresolver
  have hall : (Key.byAlias a : Key String).isAll = true := decide_eq_true ha
  rw [hkeys, Shelf.mem_keys, hb.blank.data_reload b.name policy now hmem, if_pos hall] at hk
  cases hk

/-- A load of the teams with a permission leaves those outdated that were so and that the answer lacks. -/
theorem isOutdated_reload_withPermission (hb : Reached b) (hentries : ∀ e ∈ entries, e.2.teamId = e.1)
    (p : String) (now : Instant) :
    (b.cache.reload b.name policy now (withPermission p) inc entries).cache.isOutdated
        (withPermission p) inc = true
      ↔ LeavesStale b.cache (withPermission p) inc entries := by
  have hresolver : (b.cache.reload b.name policy now (withPermission p) inc entries).cache.resolvers.get?
      withPermissionName = some permissionResolver := by
    rw [Cache.resolvers_reload]
    exact hb.sane.permitted
  -- what the answer lacks is left, and nothing is removed
  have hdata : ∀ {id : String}, id ∉ entries.map Prod.fst →
      (b.cache.reload b.name policy now (withPermission p) inc entries).cache.data.get? id
        = b.cache.data.get? id := fun hid => hb.blank.data_reload b.name policy now hid
  rw [hb.blank.isOutdated_reload_key b.name total_policy now]
  constructor
  · rintro ⟨k, hk, _, hmem, hdrop | hout⟩
    · cases (Cache.mem_commitDrops.1 hdrop).1
    · obtain ⟨id, team, hid, hp, rfl⟩ := (mem_resolve_withPermission hresolver).1 hk
      have hnot : id ∉ entries.map Prod.fst := by
        have hwritten := hid
        unfold Cache.reload at hwritten
        rw [Cache.data_commit_ok] at hwritten
        rcases teamId_writeLoaded hentries hwritten with rfl | ⟨hkeys, _⟩
        · exact hmem
        · intro hin
          exact hkeys ((Cache.mem_commitWrites (Cache.complete_commitWrites total_policy)).2
            ⟨hin, hb.blank.not_isSuperseded _ _ id⟩)
      exact ⟨p, id, team, rfl, (hdata hnot).symm.trans hid, hp, hnot, hmem, hout⟩
  · rintro ⟨p', id, team, hkey, hid, hp, hnot, hmem, hout⟩
    obtain rfl : p = p' := by
      injection hkey with hkey
      injection hkey with _ hparam
      exact Option.some.inj hparam
    exact ⟨team.teamId, (mem_resolve_withPermission hresolver).2 ⟨id, team, (hdata hnot).trans hid, hp, rfl⟩,
      List.not_mem_nil, hmem, Or.inr hout⟩

/-- Of all keys that teams have, only the teams with a permission can be outdated after a load. -/
theorem isOutdated_reload_iff (hb : Reached b) (hkey : Known key)
    (hentries : ∀ e ∈ entries, e.2.teamId = e.1) (now : Instant) :
    (b.cache.reload b.name policy now key inc entries).cache.isOutdated key inc = true
      ↔ LeavesStale b.cache key inc entries := by
  have hnamed : ∀ key : Key String, key.asAlias = none →
      ((b.cache.reload b.name policy now key inc entries).cache.isOutdated key inc = true
        ↔ LeavesStale b.cache key inc entries) := by
    intro key hnone
    refine iff_of_false (fun hout => ?_) ?_
    · obtain ⟨k, hk, hasked, _⟩ := (hb.blank.isOutdated_reload_key b.name total_policy now).1 hout
      cases key with
      | byAlias a => cases hnone
      | _ => exact hasked hk
    · rintro ⟨p, _, _, rfl, _⟩
      cases hnone
  cases key with
  | single k => exact hnamed (.single k) rfl
  | list ks => exact hnamed (.list ks) rfl
  | byAlias a =>
      obtain ⟨name, param⟩ := a
      rcases hkey _ rfl with rfl | rfl
      · refine iff_of_false (Bool.eq_false_iff.1 (not_isOutdated_reload_all hb rfl now)) ?_
        rintro ⟨p, _, _, heq, _⟩
        have hname : Alias.allName = withPermissionName := congrArg Alias.name (Key.byAlias.inj heq)
        exact absurd hname (by decide)
      · cases param with
        | some p => exact isOutdated_reload_withPermission hb hentries p now
        | none =>
            -- without a permission the alias stands for no team
            refine iff_of_false (fun hout => ?_) ?_
            · obtain ⟨k, hk, _⟩ := (hb.blank.isOutdated_reload_key b.name total_policy now).1 hout
              have hnone : (b.cache.reload b.name policy now (.byAlias ⟨withPermissionName, none⟩) inc
                  entries).cache.resolve (.byAlias ⟨withPermissionName, none⟩) = [] := by
                refine Cache.resolve_byAlias (r := permissionResolver) ?_
                rw [Cache.resolvers_reload]
                exact hb.sane.permitted
              rw [hnone] at hk
              exact List.not_mem_nil hk
            · rintro ⟨p, _, _, heq, _⟩
              cases heq

/-- What is left stale is left so again by the same answer. -/
theorem leavesStale_reload (hb : Reached b) (h : LeavesStale b.cache key inc entries) (now : Instant) :
    LeavesStale (b.cache.reload b.name policy now key inc entries).cache key inc entries := by
  obtain ⟨p, id, team, rfl, hid, hp, hnot, hmem, hout⟩ := h
  refine ⟨p, id, team, rfl, ?_, hp, hnot, hmem, ?_⟩
  · rw [hb.blank.data_reload b.name policy now hnot]
    exact hid
  · refine (hb.blank.isOutdated_reload b.name total_policy now _).2 ⟨?_, ?_, Or.inr hout⟩
    · exact fun hin => absurd (Key.key_mem_requested.1 hin) List.not_mem_nil
    · exact mt Target.key_mem_map.1 hmem

/-- What is left stale is asked for again, and there is nothing that the load could join. -/
theorem start_of_leavesStale (hb : Reached b) (h : LeavesStale b.cache key inc entries) (now : Instant)
    (hout : (b.cache.reload b.name policy now key inc entries).cache.isOutdated key inc = true)
    (name : String) (p : Policy String Team) :
    ((b.cache.reload b.name policy now key inc entries).cache.start name p key inc false).result
      = .begun ((b.cache.reload b.name policy now key inc entries).cache.nextLoad key inc) := by
  have hvalid : (b.cache.reload b.name policy now key inc entries).cache.rejection name p key = none := by
    obtain ⟨permission, _, _, rfl, _⟩ := h
    refine rejection_withPermission (r := permissionResolver) ?_ name p permission
    rw [Cache.resolvers_reload]
    exact hb.sane.permitted
  rw [Cache.start_of_wanted hvalid (Or.inr hout), Cache.joinable?_reload]

end

end Teams

/-! ## Polls -/

namespace Binding

variable {κ ν : Type} [EntryKey κ] {b : Binding κ} {r : Resource κ ν}

/-- A poll that has begun a load did so for the key of the binding, which goes on following it. -/
theorem poll_begun {result : Option LoadResult} {request : Nat} {load : PendingLoad κ}
    (h : (b.poll r result request).1.started = some (.begun load)) :
    ∃ key, b.key = some key ∧ b.options.active = true ∧ b.options.freeze = false
      ∧ (r.start key b.includes false).2 = .begun load
      ∧ (b.poll r result request).1.resource = (r.start key b.includes false).1
      ∧ (b.poll r result request).1.binding.key = some key
      ∧ (b.poll r result request).1.binding.includes = b.includes
      ∧ (b.poll r result request).1.binding.options = b.options := by
  obtain ⟨hkey, hinc, hoptions⟩ := b.collect_follows r result
  rcases b.poll_cases r result request with ⟨key, hfollowed, hload, hpoll⟩ | ⟨_, hpoll⟩
  · obtain ⟨_, _, hactive, hfreeze, _⟩ := canLoad_iff.1 hload
    rw [hpoll] at h ⊢
    dsimp only at h ⊢
    rw [hoptions] at hactive hfreeze
    rw [hinc] at h ⊢
    exact ⟨key, hkey.symm.trans hfollowed, hactive, hfreeze, Option.some.inj h, rfl, hfollowed, rfl, hoptions⟩
  · rw [hpoll] at h
    cases h

/-- A poll that collects a success tells the data, and asks for a load if the key is outdated. -/
theorem poll_answered {key : Key κ} (hkey : b.key = some key) (hactive : b.options.active = true)
    (hfreeze : b.options.freeze = false) (request : Nat) :
    (b.poll r (some (.ok ())) request).1.notices = dataNotice r (some key)
      ∧ (b.poll r (some (.ok ())) request).2 = true
      ∧ (r.cache.isOutdated key b.includes = true → (b.poll r (some (.ok ())) request).1.started
          = some (r.start key b.includes false).2)
      ∧ (r.cache.isOutdated key b.includes = false → (b.poll r (some (.ok ())) request).1.started = none
          ∧ (b.poll r (some (.ok ())) request).1.resource = r) := by
  unfold poll collect canLoad ask
  cases hout : r.cache.isOutdated key b.includes <;> simp [hkey, hactive, hfreeze, hout]

end Binding

namespace Teams

/-- The entries of an answer are teams under their own ids. -/
theorem teamId_of_joined {replies : List (Except Api.ServiceError Json)} {entries : List (String × Team)}
    (h : joined replies = .ok entries) : ∀ e ∈ entries, e.2.teamId = e.1 := by
  intro e he
  obtain ⟨_, _, _, _, record, _, rfl⟩ := mem_joined h he
  rfl

/--
**A binding rests after its load, unless a team is left stale.**

The teams are in any state that they can come to. A poll of a binding begins a load of a key that teams
have; the service answers, whatever it does answer, and the load commits before anything else happens.
The next poll tells the data. It begins no further load, and the key is fresh, unless the answer leaves
a team stale: then the key is outdated, the poll begins the same load once more, and the same answer
leaves the team stale again.
-/
theorem rests_after_load_iff {r : Resource String Team} {pending : List (PendingLoad String)}
    (hr : Reached (r.atWork pending)) (hmany : r.isSingle = false) {b : Binding String}
    (hknown : ∀ key, b.key = some key → Known key) {result : Option LoadResult} {request : Nat}
    {load : PendingLoad String} (hpoll : (b.poll r result request).1.started = some (.begun load))
    {replies : List (Except Api.ServiceError Json)} {entries : List (String × Team)}
    (hanswer : joined replies = .ok entries) (now : Instant) (request' : Nat) :
    let move := (b.poll r result request).1
    let done := move.resource.commit now load (joined replies)
    let next := move.binding.poll done.1 (some (.ok ())) request'
    ∃ key, b.key = some key ∧ done.2 = .success
      ∧ next.1.notices = [.data (.many (done.1.cache.getMany key))] ∧ next.2 = true
      ∧ (¬ LeavesStale r.cache key b.includes entries →
          done.1.cache.isOutdated key b.includes = false ∧ next.1.started = none
            ∧ next.1.resource = done.1)
      ∧ (LeavesStale r.cache key b.includes entries →
          done.1.cache.isOutdated key b.includes = true
            ∧ next.1.started = some (.begun (done.1.cache.nextLoad key b.includes))
            ∧ LeavesStale done.1.cache key b.includes entries) := by
  intro move done next
  obtain ⟨key, hkey, hactive, hfreeze, hbegun, hresource, hkey', hinc', hoptions'⟩ :=
    Binding.poll_begun hpoll
  have hpolicy : r.policy = policy := hr.sane.policy
  -- nothing happens until the commit, so that the two together are a reload of the cache polled
  obtain ⟨rfl, hcommit⟩ := Resource.commit_of_begun hbegun now entries
  have hdone : done = (r.start key b.includes false).1.apply
      (r.cache.reload r.name policy now key b.includes entries) := by
    show move.resource.commit now _ (joined replies) = _
    rw [hanswer, show move.resource = _ from hresource, hcommit, hpolicy]
  have hcache : done.1.cache = (r.cache.reload r.name policy now key b.includes entries).cache := by
    rw [hdone]
    rfl
  have hsuccess : done.2 = .success := by
    rw [hdone]
    exact Cache.result_reload total_policy
  have hdata : Binding.dataNotice done.1 (some key) = [.data (.many (done.1.cache.getMany key))] := by
    have hsingle : done.1.isSingle = false := by
      rw [hdone]
      exact hmany
    simp [Binding.dataNotice, Resource.read, hsingle]
  have hiff : done.1.cache.isOutdated key b.includes = true
      ↔ LeavesStale r.cache key b.includes entries := by
    rw [hcache]
    exact isOutdated_reload_iff hr (hknown key hkey) (teamId_of_joined hanswer) now
  -- the second poll follows the same key with the same includes
  obtain ⟨hnotices, hchanged, hagain, hrest⟩ := Binding.poll_answered (r := done.1) hkey'
    (hoptions' ▸ hactive) (hoptions' ▸ hfreeze) request'
  rw [hinc'] at hagain hrest
  refine ⟨key, hkey, hsuccess, hnotices.trans hdata, hchanged, fun hnot => ?_, fun hstale => ?_⟩
  · have hfresh := Bool.eq_false_iff.2 (mt hiff.1 hnot)
    exact ⟨hfresh, hrest hfresh⟩
  · have hout := hiff.2 hstale
    have hstart : (done.1.start key b.includes false).2
        = .begun (done.1.cache.nextLoad key b.includes) := by
      show (done.1.cache.start done.1.name done.1.policy key b.includes false).result = _
      rw [hcache] at hout ⊢
      exact start_of_leavesStale hr hstale now hout _ _
    refine ⟨hout, (hagain hout).trans (congrArg some hstart), ?_⟩
    rw [hcache]
    exact leavesStale_reload hr hstale now

/-- Two teams have a permission and one of them is outdated. The service has taken the permission from
that one and says nothing on the other, which is fresh: the second poll tells the team that still has
the permission, and rests. -/
theorem rests_after_load_permission_taken :
    let listed (id : String) (permissions : List String) : Json :=
      .obj [("teamId", .str id), ("teamPermissions", .strings permissions)]
    let answer (teams : List Json) : Except Api.ServiceError Json := .ok (.obj [("teams", .arr teams)])
    let d := ({} : Desk).run [.load Key.all Includes.none false,
      .loaded 1 ⟨0, 0⟩ [answer [listed "a" ["p"], listed "b" ["p"]]], .markOutdated (.single "b")]
    let b : Binding String := { key := some (withPermission "p") }
    let move := (b.poll d.resource none 0).1
    let done := move.resource.commit ⟨0, 0⟩ (d.resource.cache.nextLoad (withPermission "p") Includes.none)
      (joined [answer [listed "b" []]])
    let next := move.binding.poll done.1 (some (.ok ())) 1
    next.1.notices = [.data (.many (done.1.cache.getMany (withPermission "p")))]
      ∧ next.1.started = none ∧ done.1.cache.resolve (withPermission "p") = ["a"] := by
  intro listed answer d b
  have hentries : joined [answer [listed "b" []]] = .ok [("b", { teamId := "b" })] := by rfl
  have hpoll : (b.poll d.resource none 0).1.started
      = some (.begun (d.resource.cache.nextLoad (withPermission "p") Includes.none)) := by rfl
  have hkeys : d.resource.cache.data.keys = ["a", "b"] := by decide +kernel
  have ha : d.resource.cache.data.get? "a" = some { teamId := "a", permissions := ["p"] } := by rfl
  have hfresh : d.resource.cache.ledger.isOutdated (.key "a") Includes.none = false := by decide +kernel
  have hnot : ¬ LeavesStale d.resource.cache (withPermission "p") Includes.none
      [("b", { teamId := "b" })] := by
    rintro ⟨_, id, team, _, hid, _, hmem, _, hout⟩
    have hid' : id ∈ ["a", "b"] := by
      rw [← hkeys, Shelf.mem_keys, hid]
      rfl
    rcases List.mem_cons.1 hid' with rfl | hb
    · rw [ha] at hid
      cases hid
      rw [hfresh] at hout
      cases hout
    · exact hmem hb
  have hknown : ∀ key, b.key = some key → Known key := by
    intro key hkey a ha
    cases Option.some.inj hkey
    cases ha
    exact Or.inr rfl
  have hreached : Reached (d.resource.atWork d.pending) := Desk.reached_run _
  have hrests := rests_after_load_iff hreached rfl hknown hpoll hentries ⟨0, 0⟩ 1
  obtain ⟨key, hkey, _, hnotices, _, hrest, _⟩ := hrests
  obtain rfl : withPermission "p" = key := Option.some.inj hkey
  exact ⟨hnotices, (hrest hnot).2.1, by decide +kernel⟩

/-- A team with the permission is outdated and the service no longer lists it. The load leaves the team
stale, and the second poll asks for the same load once more. -/
theorem asks_again_after_team_gone :
    let d := ({} : Desk).run [.load Key.all Includes.none false,
      .loaded 1 ⟨0, 0⟩ [.ok (.obj [("teams", .arr [.obj [("teamId", .str "a"),
        ("teamPermissions", .strings ["p"])]])])], .markOutdated (.single "a")]
    let b : Binding String := { key := some (withPermission "p") }
    let move := (b.poll d.resource none 0).1
    let done := move.resource.commit ⟨0, 0⟩ (d.resource.cache.nextLoad (withPermission "p") Includes.none)
      (joined [.ok (.obj [("teams", .arr [])])])
    let next := move.binding.poll done.1 (some (.ok ())) 1
    move.started = some (.begun (d.resource.cache.nextLoad (withPermission "p") Includes.none))
      ∧ done.2 = .success ∧ done.1.cache.isOutdated (withPermission "p") Includes.none = true
      ∧ next.1.started
        = some (.begun (done.1.cache.nextLoad (withPermission "p") Includes.none)) :=
  ⟨by rfl, by rfl, by decide +kernel, by rfl⟩

end Teams

end Larder
