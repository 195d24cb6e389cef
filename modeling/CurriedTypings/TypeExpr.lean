import CurriedTypings.Distinct

/-!
# Type expressions

Signatures are built as data and become text only when they are printed. The
vocabulary is closed: the generic variables `A`..`D` for parameters and `Z` for
the result, arrays, collections, callbacks of one or two arguments
(`Iteratee1`, `Iteratee2`), and the function that is left after a partial
application (`Curry1`, `Curry2`, …).

`vars` collects the variables of a type in the order they are met, each
once; `leaves` is the plain sequence of variable leaves in the same order.
`widths` lists the continuations in a type by the number of parameters they
wait for.

Every composite type prints as a reference to one of the helper types a module
declares at its top (`CollectionOf<T>`, `Iteratee1<T, R>`, `Curry2<A, B, Z>`),
so a printed type never needs parentheses; only arrays have a postfix form.
-/

namespace CurriedTypings

/-- A generic variable. Parameters draw from `a`..`d`; `z` stands for the result. -/
inductive TypeVar where
  | a | b | c | d | z
  deriving DecidableEq, Repr, Inhabited

namespace TypeVar

def name : TypeVar → String
  | a => "A"
  | b => "B"
  | c => "C"
  | d => "D"
  | z => "Z"

/-- The variables parameters may be bound to, in order of use. -/
def slotVars : List TypeVar := [a, b, c, d]

def result : TypeVar := z

/-- The variable of the parameter at `index`, as long as there are any left. -/
def forSlot (index : Nat) : Option TypeVar := slotVars[index]?

theorem result_not_mem_slotVars : result ∉ slotVars := by decide

theorem nodup_slotVars : slotVars.Nodup := by decide

end TypeVar

inductive CallbackArity where
  /-- `(value) => result`. -/
  | unary
  /-- `(accumulator, value) => accumulator`. -/
  | binary
  deriving DecidableEq, Repr, Inhabited

namespace CallbackArity

def ofDeclared : Nat → Option CallbackArity
  | 1 => some unary
  | 2 => some binary
  | _ => none

def count : CallbackArity → Nat
  | unary => 1
  | binary => 2

theorem ofDeclared_eq_some_iff {n : Nat} {k : CallbackArity} :
    ofDeclared n = some k ↔ n = k.count := by
  unfold ofDeclared
  split <;> cases k <;> simp_all [count]

theorem exists_ofDeclared_iff {n : Nat} : (∃ k, ofDeclared n = some k) ↔ n = 1 ∨ n = 2 := by
  unfold ofDeclared
  split <;> simp_all

theorem ofDeclared_eq_none_iff {n : Nat} : ofDeclared n = none ↔ n ≠ 1 ∧ n ≠ 2 := by
  unfold ofDeclared
  split <;> simp_all

end CallbackArity

inductive TypeExpr where
  | var (v : TypeVar)
  | array (element : TypeExpr)
  /-- A sequence or keyed object with elements of one type. -/
  | collection (element : TypeExpr)
  /-- A callback over `value`; for a binary one `result` is also the accumulator. -/
  | iteratee (arity : CallbackArity) (value result : TypeExpr)
  /-- What a partial application returns: a function still waiting for `remaining`. -/
  | continuation (remaining : List TypeExpr) (result : TypeExpr)
  deriving BEq, Repr, Inhabited

namespace TypeExpr

mutual

def leaves : TypeExpr → List TypeVar
  | var v => [v]
  | array element => element.leaves
  | collection element => element.leaves
  | iteratee _ value result => value.leaves ++ result.leaves
  | continuation remaining result => leavesOfAll remaining ++ result.leaves

def leavesOfAll : List TypeExpr → List TypeVar
  | [] => []
  | t :: ts => t.leaves ++ leavesOfAll ts

end

mutual

/-- The widths of the continuations in a type, at any depth. -/
def widths : TypeExpr → List Nat
  | var _ => []
  | array element => element.widths
  | collection element => element.widths
  | iteratee _ value result => value.widths ++ result.widths
  | continuation remaining result => remaining.length :: (widthsOfAll remaining ++ result.widths)

def widthsOfAll : List TypeExpr → List Nat
  | [] => []
  | t :: ts => t.widths ++ widthsOfAll ts

end

mutual

/-- Adds the variables met in a type to those already `seen`. -/
def collectVars (seen : List TypeVar) : TypeExpr → List TypeVar
  | var v => insertNew seen v
  | array element => collectVars seen element
  | collection element => collectVars seen element
  | iteratee _ value result => collectVars (collectVars seen value) result
  | continuation remaining result => collectVars (collectVarsOfAll seen remaining) result

def collectVarsOfAll (seen : List TypeVar) : List TypeExpr → List TypeVar
  | [] => seen
  | t :: ts => collectVarsOfAll (collectVars seen t) ts

end

def vars (t : TypeExpr) : List TypeVar := collectVars [] t

def asContinuation? : TypeExpr → Option (List TypeExpr × TypeExpr)
  | continuation remaining result => some (remaining, result)
  | _ => none

/-- Whether a type is the outcome of a partial application. -/
def isContinuation (t : TypeExpr) : Bool := t.asContinuation?.isSome

theorem leavesOfAll_append (ts us : List TypeExpr) :
    leavesOfAll (ts ++ us) = leavesOfAll ts ++ leavesOfAll us := by
  induction ts with
  | nil => simp [leavesOfAll]
  | cons t ts ih => simp [leavesOfAll, ih]

theorem leavesOfAll_eq_flatMap (ts : List TypeExpr) :
    leavesOfAll ts = ts.flatMap leaves := by
  induction ts with
  | nil => rfl
  | cons t ts ih => simp [leavesOfAll, ih]

theorem widthsOfAll_eq_flatMap (ts : List TypeExpr) :
    widthsOfAll ts = ts.flatMap widths := by
  induction ts with
  | nil => rfl
  | cons t ts ih => simp [widthsOfAll, ih]

mutual

/-- Collecting variables is adding the leaves of a type one after the other. -/
theorem collectVars_eq (seen : List TypeVar) :
    ∀ t : TypeExpr, collectVars seen t = addNew seen t.leaves
  | var _ => rfl
  | array element => collectVars_eq seen element
  | collection element => collectVars_eq seen element
  | iteratee _ value result => by
      rw [collectVars, collectVars_eq seen value, collectVars_eq _ result, leaves, addNew_append]
  | continuation remaining result => by
      rw [collectVars, collectVarsOfAll_eq seen remaining, collectVars_eq _ result, leaves,
        addNew_append]

theorem collectVarsOfAll_eq (seen : List TypeVar) :
    ∀ ts : List TypeExpr, collectVarsOfAll seen ts = addNew seen (leavesOfAll ts)
  | [] => rfl
  | t :: ts => by
      rw [collectVarsOfAll, collectVars_eq seen t, collectVarsOfAll_eq _ ts, leavesOfAll,
        addNew_append]

end

theorem vars_eq_distinct (t : TypeExpr) : t.vars = distinct t.leaves := by
  rw [vars, collectVars_eq, addNew_nil_left]

theorem mem_vars {v : TypeVar} {t : TypeExpr} : v ∈ t.vars ↔ v ∈ t.leaves := by
  rw [vars_eq_distinct, mem_distinct]

end TypeExpr

/-! ## Types as text -/

/-- Name of the helper type for arrays and keyed objects. -/
def collectionName : String := "CollectionOf"

def objectName : String := "ObjectOf"

def continuationName (width : Nat) : String := "Curry" ++ toString width

def commaSeparated (items : List String) : String := ", ".intercalate items

def CallbackArity.typeName (k : CallbackArity) : String := "Iteratee" ++ toString k.count

/-- The arrow type a callback's helper type stands for, over the named value and result. -/
def CallbackArity.arrow : CallbackArity → (value result : String) → String
  | .unary, value, result => "(value: " ++ value ++ ") => " ++ result
  | .binary, value, result =>
    "(accumulator: " ++ result ++ ", value: " ++ value ++ ") => " ++ result

/-- The generic parameter list `<A, B, Z>`; nothing at all for no parameters. -/
def TypeVar.paramList : List TypeVar → String
  | [] => ""
  | vs => "<" ++ commaSeparated (vs.map TypeVar.name) ++ ">"

namespace TypeExpr

mutual

def print : TypeExpr → String
  | var v => v.name
  | array element => element.print ++ "[]"
  | collection element => collectionName ++ "<" ++ element.print ++ ">"
  | iteratee k value result => k.typeName ++ "<" ++ value.print ++ ", " ++ result.print ++ ">"
  | continuation remaining result =>
    continuationName remaining.length ++ "<" ++
      commaSeparated (printAll remaining ++ [result.print]) ++ ">"

def printAll : List TypeExpr → List String
  | [] => []
  | t :: ts => t.print :: printAll ts

end

theorem printAll_eq_map (ts : List TypeExpr) : printAll ts = ts.map print := by
  induction ts with
  | nil => rfl
  | cons t ts ih => simp [printAll, ih]

end TypeExpr

end CurriedTypings
