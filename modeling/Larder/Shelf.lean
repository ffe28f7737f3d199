import Larder.Table

/-!
# Shelves

A shelf holds values under keys in ascending key order, each key at most once. The order is part of
the type: no operation can produce a shelf that is out of order, so listing one is always listing it
sorted.
-/

namespace Larder

/-- Keys in strictly ascending order. -/
def Ascending {κ : Type} [Ord κ] (keys : List κ) : Prop :=
  keys.Pairwise fun a b => compare a b = .lt

/-- Values under distinct keys, in ascending key order. -/
structure Shelf (κ ν : Type) [Ord κ] where
  /-- The pairs, smallest key first. -/
  entries : List (κ × ν) := []
  /-- The keys ascend, so no key stands twice. -/
  ascending : Ascending (entries.map Prod.fst) := by simp [Ascending]

namespace Shelf

variable {κ ν : Type} [Ord κ]

/-- Put `v` under `k` in an ascending list of pairs. -/
def place (k : κ) (v : ν) : List (κ × ν) → List (κ × ν)
  | [] => [(k, v)]
  | e :: rest =>
    match compare k e.1 with
    | .lt => (k, v) :: e :: rest
    | .eq => (k, v) :: rest
    | .gt => e :: place k v rest

/-- The keys after `place` are the old ones and the new one. -/
theorem mem_keys_place [Std.LawfulEqOrd κ] {k j : κ} {v : ν} {l : List (κ × ν)} :
    j ∈ (place k v l).map Prod.fst ↔ j = k ∨ j ∈ l.map Prod.fst := by
  induction l with
  | nil => simp [place]
  | cons e rest ih =>
    simp only [place]
    cases h : compare k e.1 with
    | lt => simp
    | eq =>
      have : k = e.1 := Std.LawfulEqCmp.compare_eq_iff_eq.1 h
      simp [this]
    | gt =>
      simp only [List.map_cons, List.mem_cons, ih]
      constructor
      · rintro (h | h | h) <;> simp [h]
      · rintro (h | h | h) <;> simp [h]

/-- Placing a value keeps the keys ascending. -/
theorem ascending_place [Std.TransOrd κ] [Std.LawfulEqOrd κ] (k : κ) (v : ν)
    {l : List (κ × ν)} (h : Ascending (l.map Prod.fst)) :
    Ascending ((place k v l).map Prod.fst) := by
  induction l with
  | nil => simp [place, Ascending]
  | cons e rest ih =>
    have hrest : Ascending (rest.map Prod.fst) := (List.pairwise_cons.1 h).2
    have hhead := (List.pairwise_cons.1 h).1
    simp only [place]
    cases hk : compare k e.1 with
    | lt =>
      refine List.pairwise_cons.2 ⟨?_, h⟩
      intro j hj
      rcases List.mem_cons.1 hj with rfl | hj
      · exact hk
      · exact Std.TransCmp.lt_trans hk (hhead j hj)
    | eq =>
      have : k = e.1 := Std.LawfulEqCmp.compare_eq_iff_eq.1 hk
      subst this
      exact h
    | gt =>
      refine List.pairwise_cons.2 ⟨?_, ih hrest⟩
      intro j hj
      rcases mem_keys_place.1 hj with rfl | hj
      · exact Std.OrientedCmp.gt_iff_lt.1 hk
      · exact hhead j hj

/-- The shelf that holds nothing. -/
def empty : Shelf κ ν := {}

instance : EmptyCollection (Shelf κ ν) := ⟨empty⟩

/-- The keys in ascending order. -/
def keys (s : Shelf κ ν) : List κ := s.entries.map Prod.fst

/-- The values in ascending order of their keys. -/
def values (s : Shelf κ ν) : List ν := s.entries.map Prod.snd

/-- How many keys hold a value. -/
def size (s : Shelf κ ν) : Nat := s.entries.length

/-- The value under `k`. -/
def get? [DecidableEq κ] (s : Shelf κ ν) (k : κ) : Option ν :=
  (s.entries.find? fun e => e.1 = k).map Prod.snd

/-- Whether a value stands under `k`. -/
def contains [DecidableEq κ] (s : Shelf κ ν) (k : κ) : Bool := (s.get? k).isSome

/-- Put `v` under `k`, in place of what stood there. -/
def insert [Std.TransOrd κ] [Std.LawfulEqOrd κ] (s : Shelf κ ν) (k : κ) (v : ν) : Shelf κ ν :=
  ⟨place k v s.entries, ascending_place k v s.ascending⟩

/-- Take away what stands under `k`. -/
def erase [DecidableEq κ] (s : Shelf κ ν) (k : κ) : Shelf κ ν :=
  ⟨s.entries.filter fun e => ¬ e.1 = k, by
    have h := s.ascending
    exact List.Pairwise.sublist (List.filter_sublist.map Prod.fst) h⟩

/-- The shelf with the pairs of a list, the last pair of a key counting. -/
def ofList [Std.TransOrd κ] [Std.LawfulEqOrd κ] (l : List (κ × ν)) : Shelf κ ν :=
  l.foldl (fun s e => s.insert e.1 e.2) empty

@[simp]
theorem get?_empty [DecidableEq κ] (k : κ) : (empty : Shelf κ ν).get? k = none := rfl

theorem find?_place [DecidableEq κ] [Std.LawfulEqOrd κ] (k j : κ) (v : ν) (l : List (κ × ν)) :
    ((place k v l).find? fun e => e.1 = j).map Prod.snd
      = if k = j then some v else (l.find? fun e => e.1 = j).map Prod.snd := by
  induction l with
  | nil => by_cases h : k = j <;> simp [place, h]
  | cons e rest ih =>
    simp only [place]
    cases hk : compare k e.1 with
    | lt => by_cases h : k = j <;> simp [h]
    | eq =>
      have he : k = e.1 := Std.LawfulEqCmp.compare_eq_iff_eq.1 hk
      by_cases h : k = j
      · simp [h]
      · have : ¬ e.1 = j := he ▸ h
        simp [h, this]
    | gt =>
      by_cases hj : e.1 = j
      · have : ¬ k = j := by
          intro h
          have heq : compare k e.1 = .eq := Std.LawfulEqCmp.compare_eq_iff_eq.2 (h.trans hj.symm)
          rw [heq] at hk
          exact Ordering.noConfusion hk
        simp [hj, this]
      · simp [hj, ih]

/-- A shelf after `insert` holds the new value under `k` and what it held before elsewhere. -/
@[simp]
theorem get?_insert [DecidableEq κ] [Std.TransOrd κ] [Std.LawfulEqOrd κ] (s : Shelf κ ν) (k j : κ)
    (v : ν) : (s.insert k v).get? j = if k = j then some v else s.get? j :=
  find?_place k j v s.entries

/-- A shelf after `erase` holds nothing under `k` and what it held before elsewhere. -/
@[simp]
theorem get?_erase [DecidableEq κ] (s : Shelf κ ν) (k j : κ) :
    (s.erase k).get? j = if k = j then none else s.get? j :=
  Table.get?_erase ⟨s.entries⟩ k j

/-- The keys listed are those that hold a value. -/
theorem mem_keys [DecidableEq κ] {s : Shelf κ ν} {k : κ} :
    k ∈ s.keys ↔ (s.get? k).isSome = true := by
  simp [keys, get?, List.find?_isSome]

/-- A key that is smaller than all keys of a list is not found in it. -/
theorem find?_eq_none_of_lt [DecidableEq κ] [Std.LawfulEqOrd κ] {k : κ} {l : List (κ × ν)}
    (h : ∀ j ∈ l.map Prod.fst, compare k j = .lt) : l.find? (fun e => e.1 = k) = none := by
  refine List.find?_eq_none.2 fun e he => ?_
  have hlt := h e.1 (List.mem_map_of_mem he)
  simp only [decide_eq_true_eq]
  intro heq
  have hsame : compare k e.1 = .eq := Std.LawfulEqCmp.compare_eq_iff_eq.2 heq.symm
  rw [hsame] at hlt
  exact Ordering.noConfusion hlt

/-- Ascending lists in which the same is found are the same. -/
theorem eq_of_find?_eq [DecidableEq κ] [Std.TransOrd κ] [Std.LawfulEqOrd κ]
    {l l' : List (κ × ν)} (hl : Ascending (l.map Prod.fst)) (hl' : Ascending (l'.map Prod.fst))
    (h : ∀ k, (l.find? fun e => e.1 = k).map Prod.snd = (l'.find? fun e => e.1 = k).map Prod.snd) :
    l = l' := by
  induction l generalizing l' with
  | nil =>
    cases l' with
    | nil => rfl
    | cons e' rest' => simpa using h e'.1
  | cons e rest ih =>
    cases l' with
    | nil => simpa using h e.1
    | cons e' rest' =>
      obtain ⟨hhead, hrest⟩ := List.pairwise_cons.1 hl
      obtain ⟨hhead', hrest'⟩ := List.pairwise_cons.1 hl'
      -- of two different first keys the smaller one would be found in one list only
      have hkey : e.1 = e'.1 := by
        cases hc : compare e.1 e'.1 with
        | eq => exact Std.LawfulEqCmp.compare_eq_iff_eq.1 hc
        | lt =>
          have hnone := find?_eq_none_of_lt (l := e' :: rest') (k := e.1) (by
            intro j hj
            rcases List.mem_cons.1 hj with rfl | hj
            · exact hc
            · exact Std.TransCmp.lt_trans hc (hhead' j hj))
          have := h e.1
          rw [hnone] at this
          simp at this
        | gt =>
          have hlt : compare e'.1 e.1 = .lt := Std.OrientedCmp.gt_iff_lt.1 hc
          have hnone := find?_eq_none_of_lt (l := e :: rest) (k := e'.1) (by
            intro j hj
            rcases List.mem_cons.1 hj with rfl | hj
            · exact hlt
            · exact Std.TransCmp.lt_trans hlt (hhead j hj))
          have := h e'.1
          rw [hnone] at this
          simp at this
      have hvalue : e.2 = e'.2 := by simpa [hkey] using h e.1
      have hhere : e = e' := Prod.ext hkey hvalue
      subst hhere
      rw [ih hrest hrest' fun k => ?_]
      by_cases hk : e.1 = k
      · subst hk
        rw [find?_eq_none_of_lt hhead, find?_eq_none_of_lt hhead']
      · simpa [hk] using h k

/-- Shelves that hold the same under every key are the same. -/
theorem ext_get? [DecidableEq κ] [Std.TransOrd κ] [Std.LawfulEqOrd κ] {s t : Shelf κ ν}
    (h : ∀ k, s.get? k = t.get? k) : s = t := by
  have hentries := eq_of_find?_eq s.ascending t.ascending h
  cases s
  cases t
  cases hentries
  rfl

end Shelf

end Larder
