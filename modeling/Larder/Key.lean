import Larder.Text.Quoted

/-!
# Keys

A resource is addressed by a *key*: one concrete key, a list of them, or an alias, a symbolic name
the resource resolves to concrete keys when it is asked. The alias named `all` stands for every
entry; loading it replaces the whole cache.
-/

namespace Larder

/-- The key of a resource that holds one value only. -/
inductive Sole where
  /-- The only key there is. -/
  | only
deriving DecidableEq, Repr

/-- What concrete keys can do: they have a total order, a name, and a form for messages. -/
class EntryKey (κ : Type) extends Ord κ where
  /-- Keys can be told apart. -/
  decEq : DecidableEq κ
  /-- Equal in the order means equal. -/
  lawfulEq : Std.LawfulEqOrd κ
  /-- The order is transitive. -/
  trans : Std.TransOrd κ
  /-- The key's name in data. -/
  name : κ → String
  /-- The key a name stands for. -/
  ofName : String → κ
  /-- The key's form in messages. -/
  shown : κ → String

instance (κ : Type) [EntryKey κ] : DecidableEq κ := EntryKey.decEq

instance EntryKey.lawfulEqOrd (κ : Type) [EntryKey κ] : Std.LawfulEqOrd κ := EntryKey.lawfulEq

instance EntryKey.transOrd (κ : Type) [EntryKey κ] : Std.TransOrd κ := EntryKey.trans

instance : EntryKey String where
  decEq := inferInstance
  lawfulEq := inferInstance
  trans := inferInstance
  name := id
  ofName := id
  shown := Text.quoted

instance : Ord Sole := ⟨fun _ _ => .eq⟩

instance : Std.LawfulEqOrd Sole where
  compare_self := rfl
  eq_of_compare {a b} _ := by cases a; cases b; rfl

instance : Std.TransOrd Sole where
  eq_swap := rfl
  isLE_trans _ _ := rfl

instance : EntryKey Sole where
  decEq := inferInstance
  lawfulEq := inferInstance
  trans := inferInstance
  name _ := "()"
  ofName _ := .only
  shown _ := "()"

/-- A symbolic key. -/
structure Alias where
  /-- The name under which the resource registered the alias. -/
  name : String
  /-- What narrows the alias, such as the permission looked for. -/
  param : Option String := none
deriving DecidableEq, Repr

namespace Alias

/-- The name of the alias for every entry. -/
def allName : String := "all"

/-- The alias for every entry. -/
def all : Alias := ⟨allName, none⟩

/-- Whether loading the alias replaces the cache: it is named `all`, with or without parameter. -/
def isAll (a : Alias) : Bool := a.name = allName

/-- The short form, as in `@all` or `@teams-with-permission:read`. -/
def display (a : Alias) : String :=
  match a.param with
  | some p => "@" ++ a.name ++ ":" ++ p
  | none => "@" ++ a.name

/-- The form in messages. -/
def shown (a : Alias) : String :=
  let param := match a.param with
    | some p => "Some(" ++ Text.quoted p ++ ")"
    | none => "None"
  "ResourceAlias \x7b name: " ++ Text.quoted a.name ++ ", param: " ++ param ++ " \x7d"

end Alias

/-- The address of entries of a resource. -/
inductive Key (κ : Type) where
  /-- One concrete key. -/
  | single (key : κ)
  /-- Some concrete keys, in order, repetitions allowed. -/
  | list (keys : List κ)
  /-- An alias. -/
  | byAlias (a : Alias)
deriving DecidableEq, Repr

namespace Key

variable {κ μ : Type}

/-- The key of every entry. -/
def all : Key κ := .byAlias Alias.all

/-- Whether the key is an alias. -/
def isAlias : Key κ → Bool
  | .byAlias _ => true
  | _ => false

/-- Whether loading the key replaces the cache. -/
def isAll : Key κ → Bool
  | .byAlias a => a.isAll
  | _ => false

/-- The alias, if the key is one. -/
def asAlias : Key κ → Option Alias
  | .byAlias a => some a
  | _ => none

/-- The concrete keys that the key names itself; an alias names none. -/
def explicit : Key κ → List κ
  | .single k => [k]
  | .list ks => ks
  | .byAlias _ => []

/-- The same address with its concrete keys sent through `f`. -/
def map (f : κ → μ) : Key κ → Key μ
  | .single k => .single (f k)
  | .list ks => .list (ks.map f)
  | .byAlias a => .byAlias a

/-- The short form: the key, a bracketed list, or the alias. -/
def display [EntryKey κ] : Key κ → String
  | .single k => EntryKey.name k
  | .list ks => "[" ++ String.intercalate ", " (ks.map EntryKey.name) ++ "]"
  | .byAlias a => a.display

/-- The form in messages. -/
def shown [EntryKey κ] : Key κ → String
  | .single k => "Single(" ++ EntryKey.shown k ++ ")"
  | .list ks => "List([" ++ String.intercalate ", " (ks.map EntryKey.shown) ++ "])"
  | .byAlias a => "Alias(" ++ a.shown ++ ")"

end Key

end Larder
