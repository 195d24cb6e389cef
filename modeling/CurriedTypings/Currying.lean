import CurriedTypings.Plan

/-!
# Currying

A function of `n` parameters can be called with its first one, its first two, …,
or all of them. Each of these calls is an overload. A call that leaves parameters
outstanding returns a continuation over their types and the final result:

    reduce(iteratee)                   : Curry2<B, CollectionOf<C>, Z>
    reduce(iteratee, arg2)             : Curry1<CollectionOf<C>, Z>
    reduce(iteratee, arg2, collection) : Z

Overloads are listed by increasing number of arguments, since a type checker that
takes the first overload that fits depends on it.

A continuation over `k` outstanding parameters is a function that can again be
called with one, two, … or `k` of them. Its interface `Curryk` is therefore found
by currying `k` plain parameters over the result variable, and refers to the
interfaces of smaller width only.
-/

namespace CurriedTypings

/-! ## Overloads -/

structure Overload where
  slots : List Slot
  returnType : TypeExpr
  deriving BEq, Repr, Inhabited

namespace Overload

/-- Whether nothing is left to supply after this call. -/
def isComplete (o : Overload) : Bool := !o.returnType.isContinuation

def slotTypes (o : Overload) : List TypeExpr := o.slots.map Slot.type

end Overload

/-- What a call returns that leaves the parameters `remaining` outstanding. -/
def returnAfter (remaining : List Slot) (final : TypeExpr) : TypeExpr :=
  match remaining with
  | [] => final
  | _ => .continuation (remaining.map Slot.type) final

/-- The overloads that extend a call with the parameters `supplied` by one or more of
`remaining`. -/
def overloadsFrom (final : TypeExpr) (supplied : List Slot) : List Slot → List Overload
  | [] => []
  | s :: rest =>
    ⟨supplied ++ [s], returnAfter rest final⟩ :: overloadsFrom final (supplied ++ [s]) rest

/-- All ways to call a function with its first parameters, shortest first. -/
def curry (slots : List Slot) (final : TypeExpr) : Except SignatureError (List Overload) :=
  match slots with
  | [] => .error .emptyParameterList
  | _ :: outstanding =>
    if maxContinuationWidth < outstanding.length then
      .error (.continuationTooWide outstanding.length)
    else
      .ok (overloadsFrom final [] slots)

/-! ## Continuation interfaces -/

/-- The interface of the functions that wait for `arity` more arguments. -/
structure ContinuationDefinition where
  arity : Nat
  typeParams : List TypeVar
  signatures : List Overload
  deriving BEq, Repr, Inhabited

/-- The first `width` plain slots of an interface, as far as there are variables. -/
def continuationSlots (width : Nat) : Except SignatureError (List Slot) :=
  (List.range width).mapM fun index =>
    match TypeVar.forSlot index with
    | some v => .ok (Slot.positional (index + 1) v)
    | none => .error (.continuationTooWide width)

def continuationDefinition (width : Nat) : Except SignatureError ContinuationDefinition :=
  if width = 0 then
    .error .emptyParameterList
  else if maxContinuationWidth < width then
    .error (.continuationTooWide width)
  else do
    let slots ← continuationSlots width
    let signatures ← curry slots (.var .result)
    return ⟨width, slots.map Slot.generic ++ [.result], signatures⟩

def continuationDefinitions : Except SignatureError (List ContinuationDefinition) :=
  (List.range' 1 maxContinuationWidth).mapM continuationDefinition

/-! ## Curried functions -/

structure CurriedFunction where
  plan : Plan
  overloads : List Overload
  aliases : List AliasBinding
  deriving BEq, Repr, Inhabited

def CurriedFunction.name (c : CurriedFunction) : String := c.plan.name

def FunctionRecord.curried (f : FunctionRecord) : Except SignatureError CurriedFunction := do
  let plan ← f.plan
  let overloads ← curry plan.slots plan.returnType
  return ⟨plan, overloads, f.aliasBindings⟩

end CurriedTypings
