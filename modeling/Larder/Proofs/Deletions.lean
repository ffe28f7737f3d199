import Larder.Proofs.Errands
import Larder.Proofs.Provenance

/-!
# Deleting teams

To delete what a key stands for, the ids are looked up once and a request is sent for each, one after
the other. A team is removed when its request has succeeded, and the first failure ends the operation:
the teams before it are gone, and it and those behind it are as they were.

Loads that are under way meanwhile may well come back with a team that is gone. They pass it over,
because its removal shields it from them.
-/

namespace Larder

/-- Steps that erase a key each leave the entries under all other keys. -/
theorem Shelf.entries_foldl_erase {κ ν σ : Type} [EntryKey κ] (data : σ → Shelf κ ν) {f : σ → κ → σ}
    (hf : ∀ s k, data (f s k) = (data s).erase k) (ks : List κ) (s : σ) :
    (data (ks.foldl f s)).entries = (data s).entries.filter fun e => ¬ e.1 ∈ ks := by
  induction ks generalizing s with
  | nil => simp
  | cons k ks ih =>
      rw [List.foldl_cons, ih, hf]
      show ((data s).entries.filter fun e => ¬ e.1 = k).filter _ = _
      rw [List.filter_filter]
      refine List.filter_congr fun e _ => ?_
      simp [Bool.and_comm]

namespace Teams

/-! ## The course of a deletion -/

/-- Of the ids, those whose requests succeed: one answer belongs to each, up to the first failure. -/
def deletedBy : List String → List Arrival → List String
  | [], _ => []
  | _ :: _, [] => []
  | _ :: _, (_, .error _) :: _ => []
  | id :: ids, (_, .ok _) :: answers => id :: deletedBy ids answers

/-- The teams after some were deleted, one after the other. -/
def deleteEach (r : Resource String Team) (ids : List String) : Resource String Team :=
  ids.foldl (fun r id => (r.delete (.single id)).1) r

section

variable (force : Bool) (r : Resource String Team) (done ids : List String) (answers : List Arrival)

theorem deletedBy_prefix : deletedBy ids answers <+: ids := by
  fun_induction deletedBy ids answers with
  | case1 answers => exact List.nil_prefix
  | case2 id ids => exact List.nil_prefix
  | case3 id ids now e answers => exact List.nil_prefix
  | case4 id ids now j answers ih => exact (List.prefix_cons_inj id).2 ih

/-- All are deleted if there is an answer for each, and none of these is a failure. -/
theorem deletedBy_eq_self_iff : deletedBy ids answers = ids
    ↔ ids.length ≤ answers.length ∧ ∀ a ∈ answers.take ids.length, a.2.isOk = true := by
  fun_induction deletedBy ids answers with
  | case1 answers => simp
  | case2 id ids => simp
  | case3 id ids now e answers => simp [Except.isOk, Except.toBool]
  | case4 id ids now j answers ih => simp [ih, Except.isOk, Except.toBool]

/-! A deletion goes from id to id. -/

theorem proceed_deleteNext_nil : proceed (r, deleteNext done force []) answers
    = (r, .finished (.ok (.ids done))) :=
  proceed_finished answers r _

theorem proceed_deleteNext_ok (id : String) (now : Instant) (j : Json) :
    proceed (r, deleteNext done force (id :: ids)) ((now, .ok j) :: answers)
      = proceed ((r.delete (.single id)).1, deleteNext (done ++ [id]) force ids) answers := rfl

theorem proceed_deleteNext_error (id : String) (now : Instant) (e : Api.ServiceError) :
    proceed (r, deleteNext done force (id :: ids)) ((now, .error e) :: answers)
      = (r, .finished (.error (.service e))) :=
  proceed_finished answers r _

/-- The requests that go out are for the teams that are deleted and for one more, if one is left. -/
theorem asks_deleteNext : asks (r, deleteNext done force ids) answers
    = (ids.take ((deletedBy ids answers).length + 1)).map (deleteRequest force) := by
  fun_induction deletedBy ids answers generalizing r done with
  | case1 answers => exact asks_finished answers r _
  | case2 id ids => rfl
  | case3 id ids now e answers =>
      show _ :: asks (r, .finished (.error (.service e))) answers = _
      rw [asks_finished]
      rfl
  | case4 id ids now j answers ih =>
      show deleteRequest force id
        :: asks ((r.delete (.single id)).1, deleteNext (done ++ [id]) force ids) answers = _
      rw [ih, List.length_cons, List.take_succ_cons, List.map_cons]

/-- The teams are removed one after the other. -/
theorem proceed_deleteNext_fst : (proceed (r, deleteNext done force ids) answers).1
    = deleteEach r (deletedBy ids answers) := by
  fun_induction deletedBy ids answers generalizing r done with
  | case1 answers => rw [proceed_deleteNext_nil]; rfl
  | case2 id ids => rfl
  | case3 id ids now e answers => rw [proceed_deleteNext_error]; rfl
  | case4 id ids now j answers ih =>
      rw [proceed_deleteNext_ok, ih]
      rfl

/-- Where a deletion stands: it has come to the end of the ids, or to one whose request has failed or
is not answered yet. -/
theorem proceed_deleteNext_snd :
    (deletedBy ids answers = ids → (proceed (r, deleteNext done force ids) answers).2
        = .finished (.ok (.ids (done ++ ids))))
      ∧ ∀ id left, ids = deletedBy ids answers ++ id :: left →
        (answers[(deletedBy ids answers).length]? = none →
          (proceed (r, deleteNext done force ids) answers).2 = .send (deleteRequest force id)
            (.deleting id left (done ++ deletedBy ids answers) force))
        ∧ ∀ a, answers[(deletedBy ids answers).length]? = some a →
          ∃ e, a.2 = .error e ∧ (proceed (r, deleteNext done force ids) answers).2
            = .finished (.error (.service e)) := by
  fun_induction deletedBy ids answers generalizing r done with
  | case1 answers =>
      refine ⟨fun _ => ?_, fun _ _ h => (by cases h)⟩
      rw [proceed_deleteNext_nil, List.append_nil]
  | case2 id ids =>
      -- the request for the first id is open
      refine ⟨fun h => (by cases h), fun id' left h => ⟨fun _ => ?_, fun _ ha => (by cases ha)⟩⟩
      cases h
      rw [List.append_nil]
      rfl
  | case3 id ids now e answers =>
      -- it has failed
      refine ⟨fun h => (by cases h), fun id' left h => ⟨fun ha => (by cases ha), fun a ha => ?_⟩⟩
      cases ha
      exact ⟨e, rfl, by rw [proceed_deleteNext_error]⟩
  | case4 id ids now j answers ih =>
      -- the first team is deleted, and the rest goes on with one more done
      obtain ⟨hend, hstop⟩ := ih (r.delete (.single id)).1 (done ++ [id])
      rw [proceed_deleteNext_ok]
      refine ⟨fun h => ?_, fun id' left h => ?_⟩
      · have hall := hend (List.cons.inj h).2
        rw [List.append_assoc] at hall
        exact hall
      · obtain ⟨hopen, hfailed⟩ := hstop id' left (List.cons.inj h).2
        rw [List.append_assoc] at hopen
        exact ⟨hopen, hfailed⟩

/-- It succeeds exactly if all are deleted, and yields all the ids. -/
theorem proceed_deleteNext_ok_iff (y : Yield) :
    (proceed (r, deleteNext done force ids) answers).2 = .finished (.ok y)
      ↔ y = .ids (done ++ ids) ∧ deletedBy ids answers = ids := by
  obtain ⟨hall, hstop⟩ := proceed_deleteNext_snd force r done ids answers
  constructor
  · intro hdone
    by_cases hself : deletedBy ids answers = ids
    · have hy := hdone.symm.trans (hall hself)
      injection hy with hy
      exact ⟨Except.ok.inj hy, hself⟩
    · -- some id is left, and the deletion stands there
      obtain ⟨rest, hrest⟩ := deletedBy_prefix ids answers
      cases rest with
      | nil => exact absurd ((List.append_nil _).symm.trans hrest) hself
      | cons id left =>
          obtain ⟨hopen, hfailed⟩ := hstop id left hrest.symm
          cases ha : answers[(deletedBy ids answers).length]? with
          | none => cases hdone.symm.trans (hopen ha)
          | some a =>
              obtain ⟨e, _, hfailed⟩ := hfailed a ha
              cases hdone.symm.trans hfailed
  · rintro ⟨rfl, hself⟩
    exact hall hself

/-- A deletion waits for no load. -/
theorem loads_deletion : (proceed (r, deleteNext done force ids) answers).2.loads = [] := by
  fun_induction deletedBy ids answers generalizing r done with
  | case1 answers => rw [proceed_deleteNext_nil]; rfl
  | case2 id ids => rfl
  | case3 id ids now e answers => rw [proceed_deleteNext_error]; rfl
  | case4 id ids now j answers ih => rw [proceed_deleteNext_ok, ih]

end

/-! ## What is left -/

/-- Of the teams everything is as it was, but for some that are deleted. -/
structure DeletedOnly (d d' : Desk) (ids : List String) : Prop where
  /-- The deleted teams are gone, and all others are cached as they were. -/
  data : d'.resource.cache.data.entries
    = d.resource.cache.data.entries.filter fun e => ¬ e.1 ∈ ids
  /-- Other records are as they were. -/
  records : ∀ t, t ∉ ids.map Target.key →
    d'.resource.cache.ledger.meta? t = d.resource.cache.ledger.meta? t
  /-- The record of a deleted team knows of the loads that run and of nothing else. -/
  gone : ∀ id ∈ ids, d'.resource.cache.ledger.metaOf (.key id)
    = (d.resource.cache.ledger.metaOf (.key id)).onlyLoading
  /-- The aliases stand for what they stood for. -/
  aliases : d'.resource.cache.resolvers = d.resource.cache.resolvers
  /-- No load has started or ended. -/
  pending : d'.pending = d.pending

section

variable (r : Resource String Team) (id : String)

theorem data_delete : (r.delete (.single id)).1.cache.data = r.cache.data.erase id := rfl

theorem meta?_delete (t : Target String) : (r.delete (.single id)).1.cache.ledger.meta? t
    = (r.cache.ledger.draw.forget id).meta? t := by
  show (r.cache.delete (.single id)).cache.ledger.meta? t = _
  rw [Cache.ledger_delete, Ledger.meta?_settle]
  rfl

theorem entries_deleteEach (ids : List String) : (deleteEach r ids).cache.data.entries
    = r.cache.data.entries.filter fun e => ¬ e.1 ∈ ids :=
  Shelf.entries_foldl_erase (fun r : Resource String Team => r.cache.data) (fun r id => data_delete r id) ids r

theorem meta?_deleteEach {ids : List String} {t : Target String} (ht : t ∉ ids.map Target.key) :
    (deleteEach r ids).cache.ledger.meta? t = r.cache.ledger.meta? t := by
  induction ids generalizing r with
  | nil => rfl
  | cons id ids ih =>
      rw [List.map_cons, List.mem_cons, not_or] at ht
      refine (ih (r.delete (.single id)).1 ht.2).trans ?_
      rw [meta?_delete, Ledger.meta?_forget, if_neg (Ne.symm ht.1)]
      rfl

theorem metaOf_deleteEach {ids : List String} {id : String} (hid : id ∈ ids) :
    (deleteEach r ids).cache.ledger.metaOf (.key id)
      = (r.cache.ledger.metaOf (.key id)).onlyLoading := by
  induction ids generalizing r with
  | nil => exact absurd hid List.not_mem_nil
  | cons j ids ih =>
      have hforget : (r.delete (.single j)).1.cache.ledger.metaOf (.key id)
          = (r.cache.ledger.draw.forget j).metaOf (.key id) := Ledger.metaOf_congr (meta?_delete r j _)
      show (deleteEach (r.delete (.single j)).1 ids).cache.ledger.metaOf (.key id) = _
      by_cases hin : id ∈ ids
      · rw [ih _ hin, hforget, Ledger.metaOf_forget]
        split <;> rfl
      · -- nothing comes back of what the first deletion has left of the record
        obtain rfl : id = j := (List.mem_cons.1 hid).resolve_right hin
        rw [Ledger.metaOf_congr (meta?_deleteEach _ (mt Target.key_mem_map.1 hin)), hforget,
          Ledger.metaOf_forget, if_pos rfl]
        rfl

theorem resolvers_deleteEach (ids : List String) :
    (deleteEach r ids).cache.resolvers = r.cache.resolvers := by
  induction ids generalizing r with
  | nil => rfl
  | cons id ids ih =>
      refine (ih (r.delete (.single id)).1).trans ?_
      show (Cache.removeEach (r.cache.ledger.seq + 1) (r.cache.resolve (.single id)) r.cache.draw).1.resolvers
        = r.cache.resolvers
      rw [Cache.removeEach_fst]
      rfl

end

/-- What the deletions leave, whatever the operation does next, unless it is to wait for a load. -/
theorem deletedOnly_deleteEach (d : Desk) (ids : List String) {next : Next} (hnext : next.loads = []) :
    DeletedOnly d (d.withErrand (deleteEach d.resource ids, next)) ids where
  data := entries_deleteEach d.resource ids
  records _ ht := meta?_deleteEach d.resource ht
  gone _ hid := metaOf_deleteEach d.resource hid
  aliases := resolvers_deleteEach d.resource ids
  pending := d.pending_withErrand hnext

/-! ## Loads that are under way -/

/-- The deletions are steps of the cache. -/
theorem atWork_deleteEach (r : Resource String Team) (pending : List (PendingLoad String))
    (ids : List String) : (deleteEach r ids).atWork pending
      = (r.atWork pending).run (ids.map fun id => .delete (.single id)) := by
  induction ids generalizing r with
  | nil => rfl
  | cons id ids ih => exact ih (r.delete (.single id)).1

/-- A team that was deleted is shielded from the loads that have started before. -/
theorem shielded_deleteEach {r : Resource String Team} {pending : List (PendingLoad String)}
    (hb : Busy.Sound (r.atWork pending)) {ids : List String} {id : String} (hid : id ∈ ids) :
    ((deleteEach r ids).atWork pending).Shielded id r.cache.ledger.seq := by
  -- its removal shields it, and what is deleted afterwards changes nothing about that
  obtain ⟨before, after, rfl⟩ := List.append_of_mem hid
  rw [atWork_deleteEach, List.map_append, List.map_cons, Busy.run_append, Busy.run_cons]
  have hsound := Busy.sound_run hb (before.map fun id => .delete (.single id))
  refine Busy.shielded_run (Busy.sound_step hsound _) (Busy.shielded_of_touches hsound ?_ ?_) _
  · exact Busy.seq_le_run (r.atWork pending) _
  · exact fun _ _ => List.mem_singleton.2 rfl

namespace Desk

variable {d : Desk} {id : String} {n : Nat}

theorem shielded_step (hd : Reached d.busy) (h : d.busy.Shielded id n) (m : Move) :
    (d.step m).busy.Shielded id n := by
  have hkeep : ∀ (b : Busy String Team) (op : Op String Team), d.Does m op →
      Busy.Sound b ∧ b.Shielded id n → Busy.Sound (b.step op) ∧ (b.step op).Shielded id n :=
    fun b op _ hb => ⟨Busy.sound_step hb.1 op, Busy.shielded_step hb.1 hb.2 op⟩
  exact ((step_does hd.sane.policy m).keeps hkeep ⟨Busy.sound_reachable hd.reachable, h⟩).2

/-- Whatever else happens, a team that is shielded stays so. -/
theorem shielded_run (hd : Reached d.busy) (h : d.busy.Shielded id n) (moves : List Move) :
    (d.run moves).busy.Shielded id n := by
  induction moves generalizing d with
  | nil => exact h
  | cons m moves ih => exact ih (reached_step hd m) (shielded_step hd h m)

/-- The commit of an older load leaves a team that is shielded from it. -/
theorem get?_loaded_of_shielded (hd : Reached d.busy) (h : d.busy.Shielded id n)
    {load : PendingLoad String} (hload : load ∈ d.pending) (hn : load.seq ≤ n) (now : Instant)
    (replies : List (Except Api.ServiceError Json)) :
    (d.step (.loaded load.seq now replies)).resource.cache.data.get? id
      = d.resource.cache.data.get? id := by
  have hs : d.busy.ledger.isSuperseded id load.seq = true :=
    (h.loads load hload).resolve_right (Nat.not_lt_of_le hn)
  show (d.step (.loaded load.seq now replies)).busy.cache.data.get? id = _
  rw [busy_loaded hd.sane.policy, Busy.cache_step_commit (Busy.sound_reachable hd.reachable) hload,
    Cache.data_commit_of_superseded hs]
  rfl

/--
**A deletion stops cleanly.**

The teams are in any state that they can come to, what a key stands for is to be deleted, and nothing
comes in between; the answers that have arrived may be all or only some. One request is sent for each id
in turn, up to the first that fails. Deleted are the ids before that one: they are gone, and everything
else is as it was. The operation succeeds, with all ids, exactly if there is an answer for each and none
is a failure; it fails with the first failure, and else waits for the next answer. No load that was under
way at the call brings a deleted team back, whatever happens until it commits.
-/
theorem deletion_stops_at_failure (hd : Reached d.busy) (key : Key String) (force : Bool)
    (answers : List Arrival) :
    let ids := d.resource.cache.resolve key
    let deleted := deletedBy ids answers
    let moves := d.alone (.delete key force) answers
    let d' := d.run moves
    let ended := fun result => d'.errands = d.errands ++ [.finished result]
    d.sent moves = (ids.take (deleted.length + 1)).map (deleteRequest force)
      ∧ DeletedOnly d d' deleted
      ∧ (∀ y, ended (.ok y) ↔ y = .ids ids ∧ ids.length ≤ answers.length
        ∧ ∀ a ∈ answers.take ids.length, a.2.isOk = true)
      ∧ (∀ id left, ids = deleted ++ id :: left →
        (answers[deleted.length]? = none → d'.errands
          = d.errands ++ [.send (deleteRequest force id) (.deleting id left deleted force)])
        ∧ ∀ a, answers[deleted.length]? = some a → ∃ e, a.2 = .error e ∧ ended (.error (.service e)))
      ∧ ∀ later load, load ∈ d.pending → load ∈ (d'.run later).pending → ∀ id ∈ deleted,
        ∀ now replies, ((d'.run later).step (.loaded load.seq now replies)).resource.cache.data.get? id
          = (d'.run later).resource.cache.data.get? id := by
  intro ids deleted moves d' ended
  obtain ⟨_, hstop⟩ := proceed_deleteNext_snd force d.resource [] ids answers
  have hrun : d' = d.withErrand (deleteEach d.resource deleted,
      (proceed (d.resource, deleteNext [] force ids) answers).2) := by
    rw [← proceed_deleteNext_fst force d.resource [] ids answers]
    exact d.run_alone (.delete key force) answers
  have hend : ∀ next, d'.errands = d.errands ++ [next]
      ↔ (proceed (d.resource, deleteNext [] force ids) answers).2 = next := by
    intro next
    rw [hrun]
    exact d.errands_withErrand_iff _ next
  have hdeleted : DeletedOnly d d' deleted :=
    hrun ▸ deletedOnly_deleteEach d deleted (loads_deletion force d.resource [] ids answers)
  refine ⟨?_, hdeleted, fun y => ?_, fun id left hsplit => ?_, ?_⟩
  · exact (d.sent_alone (.delete key force) answers).trans (asks_deleteNext force d.resource [] ids answers)
  · rw [← deletedBy_eq_self_iff]
    exact (hend _).trans (proceed_deleteNext_ok_iff force d.resource [] ids answers y)
  · obtain ⟨hopen, hfailed⟩ := hstop id left hsplit
    refine ⟨fun ha => (hend _).2 (hopen ha), fun a ha => ?_⟩
    obtain ⟨e, he, hfailed⟩ := hfailed a ha
    exact ⟨e, he, (hend _).2 hfailed⟩
  · intro later load hload hlater id hid now replies
    have hsound := Busy.sound_reachable hd.reachable
    have hbusy : d'.busy = (deleteEach d.resource deleted).atWork d.pending := by
      rw [← hdeleted.pending, hrun]
      rfl
    have hshield : d'.busy.Shielded id d.resource.cache.ledger.seq := by
      rw [hbusy]
      exact shielded_deleteEach hsound hid
    have hreached := reached_run_of hd moves
    exact get?_loaded_of_shielded (reached_run_of hreached later) (shielded_run hreached hshield later)
      hlater (hsound.drawn_pending hload) now replies

/-- Two teams are to be deleted, one of them twice, while a load of everything is under way. The request
for the second team fails. The first is gone and stays so when the load comes back with both; the other
is there. -/
theorem deletion_stops_at_failure_second :
    let listed : Except Api.ServiceError Json := .ok (.obj [("teams", .arr [
      .obj [("teamId", .str "a")], .obj [("teamId", .str "b")]])])
    let d := ({} : Desk).run [.load Key.all .none false, .loaded 1 ⟨0, 0⟩ [listed],
      .load Key.all .none true]
    let load : PendingLoad String := ⟨⟨Key.all, .none⟩, 2, [.key "a", .key "b", .named Alias.all]⟩
    let answers : List Arrival := [(⟨1, 0⟩, .ok .null), (⟨2, 0⟩, .error (.http "deleteTeam" 503))]
    let moves := d.alone (.delete (.list ["a", "b", "a"]) false) answers
    let d' := d.run moves
    let d'' := d'.step (.loaded load.seq ⟨3, 0⟩ [listed])
    d.sent moves = [deleteRequest false "a", deleteRequest false "b"]
      ∧ d'.errands = d.errands ++ [.finished (.error (.service (.http "deleteTeam" 503)))]
      ∧ load ∈ d'.pending ∧ d''.resource.cache.data.contains "a" = false
      ∧ d''.resource.cache.data.contains "b" = true := by
  intro listed d load answers moves d' d''
  have hreached : Reached d.busy := Desk.reached_run _
  have hids : d.resource.cache.resolve (.list ["a", "b", "a"]) = ["a", "b", "a"] := rfl
  have hdeleted : deletedBy ["a", "b", "a"] answers = ["a"] := rfl
  have hload : load ∈ d.pending := by decide +kernel
  have hthere : load ∈ d'.pending := by decide +kernel
  have hbefore : d'.resource.cache.data.contains "a" = false := by decide +kernel
  obtain ⟨hsent, _, _, hstop, hgone⟩ :=
    deletion_stops_at_failure hreached (.list ["a", "b", "a"]) false answers
  rw [hids, hdeleted] at hsent hstop hgone
  obtain ⟨e, he, hended⟩ := (hstop "b" ["a"] rfl).2 (⟨2, 0⟩, .error (.http "deleteTeam" 503)) rfl
  cases he
  have hkept := hgone [] load hload hthere "a" List.mem_cons_self ⟨3, 0⟩ [listed]
  rw [run_nil] at hkept
  refine ⟨hsent, hended, hthere, ?_, by decide +kernel⟩
  show (d''.resource.cache.data.get? "a").isSome = false
  rw [hkept]
  exact hbefore

end Desk

end Teams

end Larder
