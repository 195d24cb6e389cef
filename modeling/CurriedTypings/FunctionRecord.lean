import CurriedTypings.Distinct

/-!
# Metadata records

What the tables say about one function: how many arguments it is called with,
under which other names it is exported, and how its arguments deviate from the
plain case. Records are assembled by `set`ting one property at a time; the alias
list is an ordered set throughout, the other properties keep the last value.
-/

namespace CurriedTypings

/-- How the result variable appears in a function's final return type. -/
inductive ReturnShape where
  /-- One result per element. -/
  | arrayOfResult
  | result
  deriving DecidableEq, Repr, Inhabited

structure AliasBinding where
  name : String
  target : String
  deriving DecidableEq, Repr, Inhabited

structure FunctionRecord where
  name : String
  arity : Nat
  aliases : List String := []
  /-- Index of the argument that collects all later ones in an array, if there is one. -/
  spreadStart : Option Nat := none
  /-- Number of arguments of the callback a function takes first, if it takes one. -/
  iterateeArity : Option Nat := none
  returnShape : Option ReturnShape := none
  deriving DecidableEq, Repr, Inhabited

namespace FunctionRecord

def declare (name : String) (arity : Nat) : FunctionRecord := { name, arity }

inductive Setting where
  | aliases (names : List String)
  | spreadStart (index : Nat)
  | iterateeArity (count : Nat)
  | returnShape (shape : ReturnShape)
  deriving DecidableEq, Repr

/-- Sets one property: aliases are added to those already there, anything else is replaced. -/
def set (f : FunctionRecord) : Setting → FunctionRecord
  | .aliases names => { f with aliases := addNew f.aliases names }
  | .spreadStart index => { f with spreadStart := some index }
  | .iterateeArity count => { f with iterateeArity := some count }
  | .returnShape shape => { f with returnShape := some shape }

def setAll (f : FunctionRecord) (settings : List Setting) : FunctionRecord :=
  settings.foldl set f

/-- The record after none, one, two, … of the settings. -/
def states (f : FunctionRecord) : List Setting → List FunctionRecord
  | [] => [f]
  | s :: rest => f :: (f.set s).states rest

def aliasBindings (f : FunctionRecord) : List AliasBinding :=
  f.aliases.map fun a => ⟨a, f.name⟩

@[simp] theorem set_name (f : FunctionRecord) (s : Setting) : (f.set s).name = f.name := by
  cases s <;> rfl

@[simp] theorem set_arity (f : FunctionRecord) (s : Setting) : (f.set s).arity = f.arity := by
  cases s <;> rfl

/-- Adding aliases in two steps is adding them all at once. -/
theorem set_aliases_append (f : FunctionRecord) (xs ys : List String) :
    (f.set (.aliases xs)).set (.aliases ys) = f.set (.aliases (xs ++ ys)) := by
  simp [set, addNew_append]

/-- Setting a property again to the same changes nothing. -/
theorem set_set (f : FunctionRecord) (s : Setting) : (f.set s).set s = f.set s := by
  cases s with
  | aliases names => simp [set, addNew_addNew_self]
  | spreadStart index => rfl
  | iterateeArity count => rfl
  | returnShape shape => rfl

theorem map_name_aliasBindings (f : FunctionRecord) :
    f.aliasBindings.map AliasBinding.name = f.aliases := by
  rw [aliasBindings, List.map_map]
  exact List.map_id _

theorem mem_aliasBindings_iff {f : FunctionRecord} {a n : String} :
    ⟨a, n⟩ ∈ f.aliasBindings ↔ a ∈ f.aliases ∧ n = f.name := by
  rw [aliasBindings, List.mem_map]
  constructor
  · rintro ⟨b, hb, heq⟩
    obtain ⟨rfl, rfl⟩ := AliasBinding.mk.inj heq
    exact ⟨hb, rfl⟩
  · rintro ⟨ha, rfl⟩
    exact ⟨a, ha, rfl⟩

end FunctionRecord

end CurriedTypings
