import Larder.Proofs.Holders
import Mathlib.Data.List.Nodup

/-!
# The order in which teams are shown

Teams are compared by two different things: new ones by the time of their creation, all others by their
ids, and a new one stands before one that is not new. A sort relies on the comparison being lawful over
every mix of these, so that is shown first: reversing the arguments reverses the result, the comparison
is transitive, and teams that compare equal compare alike with all others.

Then `StablySorted` says what a stable sort by a comparison yields, and `Displayed` what this comes to
for teams: the new ones, newest first, and behind them the others by their ids. What compares equal stays
in its order. The values of a cache stand in the order of their keys, so where teams stand under their
ids, nothing is left open.
-/

namespace Larder

/-! ## Lawful comparisons -/

instance : Std.TransCmp Instant.compare :=
  inferInstanceAs (Std.TransCmp (compareLex (compareOn Instant.seconds) (compareOn Instant.nanos)))

instance : Std.LawfulEqCmp Instant.compare where
  eq_of_compare {a b} h := by
    obtain ⟨hseconds, hnanos⟩ := Ordering.then_eq_eq.1 h
    cases a
    cases b
    rw [Instant.mk.injEq]
    exact ⟨Std.LawfulEqOrd.eq_of_compare hseconds, Std.LawfulEqOrd.eq_of_compare hnanos⟩

namespace Team

theorem compare_swap (a b : Team) : compare a b = (compare b a).swap := by
  unfold compare
  rcases a.createdAt with _ | x <;> rcases b.createdAt with _ | y
  · exact Std.OrientedOrd.eq_swap
  · rfl
  · rfl
  · show Instant.compare y x = (Instant.compare x y).swap
    exact Std.OrientedCmp.eq_swap

theorem isLE_compare_trans {a b c : Team} (hab : (compare a b).isLE = true)
    (hbc : (compare b c).isLE = true) : (compare a c).isLE = true := by
  unfold compare at *
  -- a new team never stands behind one that is not, so the mixed cases are decided
  cases ha : a.createdAt <;> cases hb : b.createdAt <;> cases hc : c.createdAt <;>
    simp only [ha, hb, hc] at hab hbc ⊢
  · exact Std.TransOrd.isLE_trans hab hbc
  · cases hbc
  · cases hab
  · cases hab
  · rfl
  · cases hbc
  · rfl
  · exact Std.TransCmp.isLE_trans hbc hab

instance : Std.OrientedCmp compare where
  eq_swap := compare_swap _ _

instance : Std.TransCmp compare where
  isLE_trans := isLE_compare_trans

theorem isNew_eq_false_iff {t : Team} : t.isNew = false ↔ t.createdAt = none :=
  Option.isSome_eq_false_iff.trans Option.isNone_iff_eq_none

/-- Teams compare equal if they are new since the same time, or neither is new and they have the same
id. -/
theorem compare_eq_eq_iff {a b : Team} : compare a b = .eq
    ↔ a.createdAt = b.createdAt ∧ (a.isNew = false → a.teamId = b.teamId) := by
  unfold compare isNew
  rcases a.createdAt with _ | x <;> rcases b.createdAt with _ | y
  · simp
  · simp
  · simp
  · show Instant.compare y x = .eq ↔ some x = some y ∧ (true = false → _)
    rw [Std.LawfulEqCmp.compare_eq_iff_eq, Option.some.injEq]
    simp [eq_comm]

end Team

/-! ## Stable sorts -/

/-- A list is another one sorted by a comparison, and what compares equal stays in its order. -/
structure StablySorted {α : Type} (cmp : α → α → Ordering) (input output : List α) : Prop where
  /-- Nothing is lost or added. -/
  perm : output.Perm input
  /-- What comes before compares less or equal. -/
  sorted : output.Pairwise fun a b => (cmp a b).isLE = true
  /-- What compares equal to something stands in the order in which it stood. -/
  stable : ∀ a, (output.filter fun b => cmp a b = .eq) = input.filter fun b => cmp a b = .eq

/-- A merge sort is stable. -/
theorem stablySorted_mergeSort {α : Type} {cmp : α → α → Ordering} [Std.TransCmp cmp] (input : List α) :
    StablySorted cmp input (input.mergeSort fun a b => (cmp a b).isLE) := by
  have htrans : ∀ a b c, (cmp a b).isLE = true → (cmp b c).isLE = true → (cmp a c).isLE = true :=
    fun _ _ _ => Std.TransCmp.isLE_trans
  have htotal : ∀ a b, ((cmp a b).isLE || (cmp b a).isLE) = true := by
    intro a b
    have hswap : cmp b a = (cmp a b).swap := Std.OrientedCmp.eq_swap
    rw [hswap]
    cases cmp a b <;> rfl
  have hperm := List.mergeSort_perm input fun a b => (cmp a b).isLE
  refine ⟨hperm, List.pairwise_mergeSort htrans htotal input, fun a => ?_⟩
  -- those equal to `a` are sorted already, so they are a part of the sorted list, and of those there
  -- all of them
  have hequal : (input.filter fun b => cmp a b = .eq).Pairwise fun b c => (cmp b c).isLE = true := by
    refine List.pairwise_of_forall_mem_list fun b hb c hc => ?_
    have hab : cmp a b = .eq := of_decide_eq_true (List.mem_filter.1 hb).2
    have hbc : cmp b c = .eq := by
      rw [← Std.TransCmp.congr_left hab]
      exact of_decide_eq_true (List.mem_filter.1 hc).2
    rw [hbc]
    rfl
  have hpart := (List.sublist_mergeSort htrans htotal hequal List.filter_sublist).filter
    fun b => cmp a b = .eq
  rw [List.filter_filter] at hpart
  simp only [Bool.and_self] at hpart
  exact (hpart.eq_of_length (hperm.filter _).length_eq.symm).symm

/-- Where nothing that has a property stands behind something that has not, the list is first those that
have it and then the others. -/
theorem filter_append_filter_not {α : Type} {R : α → α → Prop} {q : α → Bool} {l : List α}
    (hl : l.Pairwise R) (hq : ∀ a b, R a b → q b = true → q a = true) :
    l.filter q ++ l.filter (fun a => !q a) = l := by
  induction l with
  | nil => rfl
  | cons a l ih =>
      obtain ⟨ha, hl⟩ := List.pairwise_cons.1 hl
      cases hqa : q a with
      | true =>
          rw [List.filter_cons_of_pos hqa, List.filter_cons_of_neg (by simp [hqa]), List.cons_append, ih hl]
      | false =>
          have hrest : ∀ b ∈ a :: l, q b = false := by
            intro b hb
            rcases List.mem_cons.1 hb with rfl | hb
            · exact hqa
            · exact Bool.eq_false_iff.2 fun hqb => Bool.false_ne_true (hqa ▸ hq a b (ha b hb) hqb)
          have hnone : (a :: l).filter q = [] :=
            List.filter_eq_nil_iff.2 fun b hb => Bool.eq_false_iff.1 (hrest b hb)
          have hall : (a :: l).filter (fun a => !q a) = a :: l :=
            List.filter_eq_self.2 fun b hb => by rw [hrest b hb, Bool.not_false]
          rw [hnone, hall, List.nil_append]

namespace Team

/-! ## Teams in order -/

/-- Some teams as they are shown: the new ones, and behind them the others. -/
structure Displayed (input news others : List Team) : Prop where
  /-- The new teams are shown first. -/
  news_perm : news.Perm (input.filter isNew)
  /-- All others are shown behind them. -/
  others_perm : others.Perm (input.filter fun t => !t.isNew)
  /-- No new team stands behind an older one. -/
  newest_first : news.Pairwise fun a b =>
    ∀ x y, a.createdAt = some x → b.createdAt = some y → y.atMost x = true
  /-- Teams that are new since the same time stand in the order in which they stood. -/
  same_time : ∀ x, (news.filter fun t => t.createdAt = some x) = input.filter fun t => t.createdAt = some x
  /-- The ids of the others ascend, by the code points of their characters. -/
  by_id : others.Pairwise fun a b => a.teamId ≤ b.teamId
  /-- Teams with the same id stand in the order in which they stood. -/
  same_id : ∀ id, (others.filter fun t => t.teamId = id)
    = input.filter fun t => !t.isNew && t.teamId = id

theorem isLE_compare_string {s t : String} : (Ord.compare s t).isLE = true ↔ s ≤ t :=
  isLE_compareOfLessAndEq String.le_antisymm String.not_le String.le_total

section

variable {input output : List Team}

/-- A new team never stands behind one that is not. -/
theorem isNew_of_isLE_compare {a b : Team} (h : (compare a b).isLE = true) (hb : b.isNew = true) :
    a.isNew = true := by
  unfold compare at h
  unfold isNew at hb ⊢
  rcases ha : a.createdAt with _ | x
  · obtain ⟨y, hy⟩ := Option.isSome_iff_exists.1 hb
    rw [ha, hy] at h
    cases h
  · rfl

/-- **What a stable sort yields is first the new teams, newest first, and then the others by their ids.** -/
theorem displayed_of_stablySorted (h : StablySorted compare input output) :
    output.filter isNew ++ output.filter (fun t => !t.isNew) = output
      ∧ Displayed input (output.filter isNew) (output.filter fun t => !t.isNew) := by
  refine ⟨filter_append_filter_not h.sorted fun _ _ => isNew_of_isLE_compare,
    h.perm.filter _, h.perm.filter _, ?_, fun x => ?_, ?_, fun id => ?_⟩
  · refine (h.sorted.filter _).imp fun {a b} hab x y hx hy => ?_
    simp only [compare, hx, hy] at hab
    exact hab
  · -- these are the teams that compare equal to any one that is new since then
    have hequal : ∀ t : Team, compare { teamId := "", createdAt := some x } t = .eq
        ↔ t.createdAt = some x := by
      intro t
      rw [compare_eq_eq_iff]
      exact ⟨fun h => h.1.symm, fun h => ⟨h.symm, fun hnew => by cases hnew⟩⟩
    have hstable := h.stable { teamId := "", createdAt := some x }
    simp only [hequal] at hstable
    rw [← hstable, List.filter_filter]
    refine List.filter_congr fun t _ => ?_
    by_cases ht : t.createdAt = some x <;> simp [ht, isNew]
  · refine List.Pairwise.imp_of_mem (fun {a b} ha hb hab => ?_) (h.sorted.filter _)
    have hplain : ∀ t ∈ output.filter (fun t => !t.isNew), t.createdAt = none := by
      intro t ht
      exact isNew_eq_false_iff.1 (by simpa using (List.mem_filter.1 ht).2)
    simp only [compare, hplain a ha, hplain b hb] at hab
    exact isLE_compare_string.1 hab
  · have hequal : ∀ t : Team, compare { teamId := id } t = .eq ↔ t.isNew = false ∧ t.teamId = id := by
      intro t
      rw [compare_eq_eq_iff, isNew_eq_false_iff (t := t)]
      exact ⟨fun h => ⟨h.1.symm, (h.2 rfl).symm⟩, fun h => ⟨h.1.symm, fun _ => h.2.symm⟩⟩
    have hstable := h.stable { teamId := id }
    simp only [hequal] at hstable
    rw [List.filter_filter]
    refine Eq.trans (List.filter_congr fun t _ => ?_) (hstable.trans (List.filter_congr fun t _ => ?_))
    · cases t.isNew <;> simp
    · cases t.isNew <;> simp

end

end Team

namespace Teams

/-- Where every team stands under its own id, the shown teams are those of the cache, each once, and the
ids decide whatever the times leave open. -/
structure Shown (r : Resource String Team) (news others : List Team) : Prop where
  /-- These are the cached teams. -/
  all : (news ++ others).Perm r.cache.data.values
  /-- No id is shown twice. -/
  once : ((news ++ others).map Team.teamId).Nodup
  /-- They are shown in order. -/
  displayed : Team.Displayed r.cache.data.values news others
  /-- Teams that are new since the same time are shown by their ids. -/
  same_time : ∀ x, Ascending ((news.filter fun t => t.createdAt = some x).map Team.teamId)
  /-- The ids of the others ascend strictly. -/
  by_id : Ascending (others.map Team.teamId)

theorem shown_sorted {r : Resource String Team} (h : r.cache.data.Labelled Team.teamId) :
    ∃ news others, sorted r = news ++ others ∧ Shown r news others := by
  have hsorted : StablySorted Team.compare r.cache.data.values (sorted r) := stablySorted_mergeSort _
  obtain ⟨hsplit, hdisplayed⟩ := Team.displayed_of_stablySorted hsorted
  have hids : (r.cache.data.values.map Team.teamId).Nodup := by
    have hall := h.ascending_map_filter fun _ => true
    rw [List.filter_true] at hall
    exact hall.nodup
  have honce : ((sorted r).map Team.teamId).Nodup :=
    (hsorted.perm.map Team.teamId).nodup_iff.2 hids
  refine ⟨_, _, hsplit.symm, ?_, ?_, hdisplayed, fun x => ?_, ?_⟩
  · rw [hsplit]
    exact hsorted.perm
  · rw [hsplit]
    exact honce
  · rw [hdisplayed.same_time x]
    exact h.ascending_map_filter _
  · have hnodup := honce.sublist ((List.filter_sublist (p := fun t => !t.isNew)).map Team.teamId)
    refine List.pairwise_map.2 ?_
    -- ids that ascend, none of them twice, ascend strictly
    refine (hdisplayed.by_id.and (List.pairwise_map.1 hnodup)).imp fun {a b} hab => ?_
    have hle := Team.isLE_compare_string.2 hab.1
    cases hc : Ord.compare a.teamId b.teamId with
    | lt => rfl
    | eq => exact absurd (Std.LawfulEqOrd.eq_of_compare hc) hab.2
    | gt =>
        rw [hc] at hle
        cases hle

/--
**The order in which teams are shown is lawful.**

The comparison of teams is a total preorder: to reverse the arguments reverses the result, it is
transitive whatever teams are new, and teams that compare equal compare alike with every other. So for
every list of teams a stable sort by it, such as the one that the client uses, yields a permutation:
first the new teams, newest first, where those of the same time stay in their order, and then the others
by their ids, where those with the same id stay in their order. If every team of a cache stands under its
own id, all cached teams are shown, each once, new ones of the same time by their ids, and the ids of the
others ascend strictly.
-/
theorem display_order_lawful :
    (∀ a b, Team.compare b a = (Team.compare a b).swap)
      ∧ (∀ a b c, (Team.compare a b).isLE = true → (Team.compare b c).isLE = true →
        (Team.compare a c).isLE = true)
      ∧ (∀ a b c, Team.compare a b = .eq →
        Team.compare a c = Team.compare b c ∧ Team.compare c a = Team.compare c b)
      ∧ (∀ input, StablySorted Team.compare input (Team.sort input))
      ∧ (∀ input output, StablySorted Team.compare input output →
        ∃ news others, output = news ++ others ∧ Team.Displayed input news others)
      ∧ ∀ r : Resource String Team, (∀ id t, r.cache.data.get? id = some t → t.teamId = id) →
        ∃ news others, sorted r = news ++ others ∧ Shown r news others := by
  refine ⟨fun a b => Team.compare_swap b a, fun a b c hab hbc => Team.isLE_compare_trans hab hbc,
    fun a b c hab => ⟨Std.TransCmp.congr_left hab, ?_⟩, fun input => stablySorted_mergeSort input,
    fun input output h => ?_, fun r h => shown_sorted h⟩
  · exact Std.TransCmp.congr_right hab
  · obtain ⟨hsplit, hdisplayed⟩ := Team.displayed_of_stablySorted h
    exact ⟨_, _, hsplit.symm, hdisplayed⟩

/-- Two teams are created at the same time, and two others are there. The new ones are shown first, and
the ids decide the rest. -/
theorem display_order_lawful_mixed :
    let created (id : String) : Except Api.ServiceError Json :=
      .ok (.obj [("team", .obj [("teamId", .str id)])])
    let listed : Except Api.ServiceError Json := .ok (.obj [("teams", .arr
      [.obj [("teamId", .str "z")], .obj [("teamId", .str "a")], .obj [("teamId", .str "y")],
        .obj [("teamId", .str "x")]])])
    let r := (({} : Desk).run [.call (.create { teamId := "y" }), .replied 0 ⟨5, 0⟩ (created "y"),
      .call (.create { teamId := "x" }), .replied 1 ⟨5, 0⟩ (created "x"),
      .load Key.all .none true, .loaded 3 ⟨6, 0⟩ [listed]]).resource
    ∃ news others, sorted r = news ++ others ∧ Shown r news others
      ∧ (news.filter fun t => t.createdAt = some ⟨5, 0⟩).map Team.teamId = ["x", "y"]
      ∧ others.map Team.teamId = ["a", "z"] := by
  intro created listed r
  have hlabelled : r.cache.data.Labelled Team.teamId :=
    Desk.labelled_run rfl (fun _ _ h => by cases h) _
  obtain ⟨_, _, _, _, _, hsorted⟩ := display_order_lawful
  obtain ⟨news, others, hsplit, hshown⟩ := hsorted r hlabelled
  refine ⟨news, others, hsplit, hshown, ?_, ?_⟩
  · rw [hshown.displayed.same_time]
    decide +kernel
  · -- there is one way only to put these two in order
    have hids : (others.map Team.teamId).Perm ["a", "z"] := by
      have hplain : (r.cache.data.values.filter fun t => !t.isNew).map Team.teamId = ["a", "z"] := by
        decide +kernel
      rw [← hplain]
      exact hshown.displayed.others_perm.map Team.teamId
    have hasc : Ascending ["a", "z"] := List.pairwise_pair.2 (by decide +kernel)
    refine List.Perm.eq_of_pairwise (fun a b _ _ hab hba => ?_) hshown.by_id hasc hids
    rw [Std.OrientedOrd.eq_swap, hab] at hba
    cases hba

end Teams

end Larder
