/-!
# Tables

A table is a finite partial function, kept as a list of bindings in the order in which their keys
were first bound. The list is an implementation detail: everything a table can tell is what `get?`
answers, and each operation has one equation saying how it changes those answers.
-/

namespace Larder

/-- A finite partial function from `κ` to `ν`. Of two bindings of one key the first counts. -/
structure Table (κ ν : Type) where
  /-- The bindings, oldest key first. -/
  entries : List (κ × ν) := []

namespace Table

variable {κ ν μ : Type}

/-- The table that binds nothing. -/
def empty : Table κ ν := ⟨[]⟩

instance : EmptyCollection (Table κ ν) := ⟨empty⟩

/-- Whether the table binds nothing. -/
def isEmpty (t : Table κ ν) : Bool := t.entries.isEmpty

/-- The bound keys, oldest first. -/
def keys (t : Table κ ν) : List κ := t.entries.map Prod.fst

/-- The bound values, oldest key first. -/
def values (t : Table κ ν) : List ν := t.entries.map Prod.snd

/-- Every value sent through `f`. -/
def mapValues (f : ν → μ) (t : Table κ ν) : Table κ μ :=
  ⟨t.entries.map fun e => (e.1, f e.2)⟩

/-- The bindings whose value satisfies `p`. -/
def filterValues (p : ν → Bool) (t : Table κ ν) : Table κ ν :=
  ⟨t.entries.filter fun e => p e.2⟩

variable [DecidableEq κ]

/-- The value bound to `k`. -/
def get? (t : Table κ ν) (k : κ) : Option ν :=
  (t.entries.find? fun e => e.1 = k).map Prod.snd

/-- Whether `k` is bound. -/
def contains (t : Table κ ν) (k : κ) : Bool := (t.get? k).isSome

/-- Bind `k` to `v` in a list of bindings, in the place it had before or else at the end. -/
def bind (k : κ) (v : ν) : List (κ × ν) → List (κ × ν)
  | [] => [(k, v)]
  | e :: rest => if e.1 = k then (k, v) :: rest else e :: bind k v rest

/-- Bind `k` to `v`, in place of what was bound to it. -/
def set (t : Table κ ν) (k : κ) (v : ν) : Table κ ν := ⟨bind k v t.entries⟩

/-- Unbind `k`. -/
def erase (t : Table κ ν) (k : κ) : Table κ ν :=
  ⟨t.entries.filter fun e => ¬ e.1 = k⟩

/-- Change what `k` is bound to, if it is bound. -/
def modify (t : Table κ ν) (k : κ) (f : ν → ν) : Table κ ν :=
  match t.get? k with
  | some v => t.set k (f v)
  | none => t

@[simp]
theorem get?_empty (k : κ) : (empty : Table κ ν).get? k = none := rfl

theorem find?_bind (k j : κ) (v : ν) (l : List (κ × ν)) :
    ((bind k v l).find? fun e => e.1 = j).map Prod.snd
      = if k = j then some v else (l.find? fun e => e.1 = j).map Prod.snd := by
  induction l with
  | nil => by_cases h : k = j <;> simp [bind, h]
  | cons e rest ih =>
    by_cases he : e.1 = k
    · by_cases h : k = j
      · simp [bind, he, h]
      · have : ¬ e.1 = j := fun hj => h (he ▸ hj)
        simp [bind, he, h]
    · rw [bind, if_neg he]
      by_cases hj : e.1 = j
      · have : ¬ k = j := fun hk => he (hj.trans hk.symm)
        simp [hj, this]
      · simp [hj, ih]

/-- A table after `set` answers the new value at `k` and what it answered before elsewhere. -/
@[simp]
theorem get?_set (t : Table κ ν) (k j : κ) (v : ν) :
    (t.set k v).get? j = if k = j then some v else t.get? j :=
  find?_bind k j v t.entries

/-- A table after `erase` answers nothing at `k` and what it answered before elsewhere. -/
@[simp]
theorem get?_erase (t : Table κ ν) (k j : κ) :
    (t.erase k).get? j = if k = j then none else t.get? j := by
  simp only [get?, erase, List.find?_filter]
  by_cases h : k = j
  · subst h
    simp only [↓reduceIte, Option.map_eq_none_iff, List.find?_eq_none]
    intro e _
    by_cases he : e.1 = k <;> simp [he]
  · simp only [h, ↓reduceIte]
    congr 1
    congr 1
    funext e
    by_cases hj : e.1 = j
    · have : ¬ j = k := fun hk => h hk.symm
      simp [hj, this]
    · simp [hj]

/-- A table after `modify` answers the changed value at `k` and what it answered before elsewhere. -/
@[simp]
theorem get?_modify (t : Table κ ν) (k j : κ) (f : ν → ν) :
    (t.modify k f).get? j = if k = j then (t.get? j).map f else t.get? j := by
  unfold modify
  by_cases h : k = j
  · subst h
    cases hk : t.get? k <;> simp [hk]
  · cases hk : t.get? k <;> simp [h]

/-- `mapValues` changes every answer by `f`. -/
@[simp]
theorem get?_mapValues (f : ν → μ) (t : Table κ ν) (k : κ) :
    (t.mapValues f).get? k = (t.get? k).map f := by
  simp only [get?, mapValues, List.find?_map, Option.map_map]
  rfl

end Table

end Larder
