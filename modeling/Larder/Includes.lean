import Larder.Shelf

/-!
# Includes

A load may ask for optional groups of fields. The groups asked for, or the groups an entry was
loaded with, form a set of names, kept in ascending order so that equal sets are equal values.

An entry loaded with one set is fresh only for requests whose set it covers.
-/

namespace Larder

/-- A set of field-group names. -/
structure Includes where
  /-- The names in ascending order. -/
  names : List String := []
  /-- The names ascend, so none stands twice. -/
  ascending : Ascending names := by simp [Ascending]

namespace Includes

instance : DecidableEq Includes := fun a b =>
  if h : a.names = b.names then
    isTrue (by cases a; cases b; cases h; rfl)
  else
    isFalse (fun he => h (he ▸ rfl))

/-- The empty set of groups. -/
def none : Includes := {}

instance : EmptyCollection Includes := ⟨none⟩

/-- Put a name into an ascending list of names. -/
def place (name : String) : List String → List String
  | [] => [name]
  | n :: rest =>
    match compare name n with
    | .lt => name :: n :: rest
    | .eq => n :: rest
    | .gt => n :: place name rest

/-- The names after `place` are the old ones and the new one. -/
theorem mem_place {name j : String} {l : List String} :
    j ∈ place name l ↔ j = name ∨ j ∈ l := by
  induction l with
  | nil => simp [place]
  | cons n rest ih =>
    simp only [place]
    cases h : compare name n with
    | lt => simp
    | eq =>
      have : name = n := Std.LawfulEqCmp.compare_eq_iff_eq.1 h
      simp [this]
    | gt =>
      simp only [List.mem_cons, ih]
      constructor
      · rintro (h | h | h) <;> simp [h]
      · rintro (h | h | h) <;> simp [h]

/-- Placing a name keeps the names ascending. -/
theorem ascending_place (name : String) {l : List String} (h : Ascending l) :
    Ascending (place name l) := by
  induction l with
  | nil => simp [place, Ascending]
  | cons n rest ih =>
    have hrest : Ascending rest := (List.pairwise_cons.1 h).2
    have hhead := (List.pairwise_cons.1 h).1
    simp only [place]
    cases hk : compare name n with
    | lt =>
      refine List.pairwise_cons.2 ⟨?_, h⟩
      intro j hj
      rcases List.mem_cons.1 hj with rfl | hj
      · exact hk
      · exact Std.TransCmp.lt_trans hk (hhead j hj)
    | eq => exact h
    | gt =>
      refine List.pairwise_cons.2 ⟨?_, ih hrest⟩
      intro j hj
      rcases mem_place.1 hj with rfl | hj
      · exact Std.OrientedCmp.gt_iff_lt.1 hk
      · exact hhead j hj

/-- A name that is there is not placed again. -/
theorem place_of_mem {name : String} {l : List String} (h : Ascending l) (hmem : name ∈ l) :
    place name l = l := by
  have hself : compare name name = .eq := Std.ReflCmp.compare_self
  induction l with
  | nil => exact absurd hmem List.not_mem_nil
  | cons n rest ih =>
    have hhead := (List.pairwise_cons.1 h).1
    simp only [place]
    cases hk : compare name n with
    | lt =>
      rcases List.mem_cons.1 hmem with rfl | hrest
      · rw [hself] at hk
        cases hk
      · -- the names ascend, so none behind the first is smaller
        have hgt := Std.OrientedCmp.gt_iff_lt.2 (hhead name hrest)
        rw [hk] at hgt
        cases hgt
    | eq => rfl
    | gt =>
      have hne : ¬ name = n := by
        rintro rfl
        rw [hself] at hk
        cases hk
      show n :: place name rest = n :: rest
      rw [ih (List.pairwise_cons.1 h).2 ((List.mem_cons.1 hmem).resolve_left hne)]

/-- The set with one more name. -/
def insert (s : Includes) (name : String) : Includes :=
  ⟨place name s.names, ascending_place name s.ascending⟩

/-- The set of the names of a list. -/
def ofList (names : List String) : Includes :=
  names.foldl insert none

/-- Whether the set has no name. -/
def isEmpty (s : Includes) : Bool := s.names.isEmpty

/-- Whether the set has a name. -/
def contains (s : Includes) (name : String) : Bool := s.names.contains name

/-- Whether everything asked for here is part of `loaded`. -/
def coveredBy (s loaded : Includes) : Bool := s.names.all loaded.contains

theorem coveredBy_iff {s loaded : Includes} :
    s.coveredBy loaded = true ↔ ∀ name ∈ s.names, name ∈ loaded.names := by
  simp [coveredBy, contains]

theorem coveredBy_self (s : Includes) : s.coveredBy s = true :=
  coveredBy_iff.2 fun _ h => h

/-- The names of either set. -/
def union (s t : Includes) : Includes := t.names.foldl insert s

theorem mem_union {s t : Includes} {name : String} :
    name ∈ (s.union t).names ↔ name ∈ s.names ∨ name ∈ t.names := by
  have hfold : ∀ (names : List String) (s : Includes),
      name ∈ (names.foldl insert s).names ↔ name ∈ s.names ∨ name ∈ names := by
    intro names
    induction names with
    | nil => simp
    | cons n names ih =>
      intro s
      rw [List.foldl_cons, ih, insert, mem_place, List.mem_cons, or_assoc, or_left_comm]
  exact hfold t.names s

theorem coveredBy_union (s t : Includes) : t.coveredBy (s.union t) = true :=
  coveredBy_iff.2 fun _ h => mem_union.2 (Or.inr h)

/-- A union with what is covered already adds nothing. -/
theorem union_of_coveredBy {s t : Includes} (h : t.coveredBy s = true) : s.union t = s := by
  have hfold : ∀ names : List String, (∀ name ∈ names, name ∈ s.names) → names.foldl insert s = s := by
    intro names
    induction names with
    | nil => intro _; rfl
    | cons n names ih =>
      intro hnames
      have hinsert : s.insert n = s := by
        simp only [insert, place_of_mem s.ascending (hnames n List.mem_cons_self)]
      rw [List.foldl_cons, hinsert]
      exact ih fun name hname => hnames name (List.mem_cons_of_mem n hname)
  exact hfold t.names (coveredBy_iff.1 h)

/-- For each known group, whether it is asked for. -/
def toVariables (s : Includes) (known : List String) : List (String × Bool) :=
  known.map fun name => (name, s.contains name)

end Includes

end Larder
