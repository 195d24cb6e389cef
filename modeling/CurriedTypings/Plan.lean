import CurriedTypings.Errors
import CurriedTypings.FunctionRecord

/-!
# Parameter plans

A plan lays out the parameters of a function as slots, each bound to the next
generic variable. A function with a callback has the callback first and the
collection it works on last, with plain arguments in between; any other function
has plain positional parameters:

    map    : [iteratee : A, collection : B]
    reduce : [iteratee : A, arg2 : B, collection : C]
    range  : [arg1 : A, arg2 : B]

The result variable is never bound to a slot. Planning fails on a record that
contradicts itself or that falls outside the supported shapes; where several
defects meet, a callback without data comes first, then an unsupported callback,
then a spread argument, then a lack of variables.
-/

namespace CurriedTypings

inductive SlotRole where
  | iteratee
  /-- A plain argument between the callback and the collection. -/
  | extraArg
  | collection
  /-- A parameter of a function without a callback. -/
  | positional
  deriving DecidableEq, Repr, Inhabited

structure Slot where
  name : String
  type : TypeExpr
  generic : TypeVar
  role : SlotRole
  deriving BEq, Repr, Inhabited

/-- The planned signature of one function. -/
structure Plan where
  name : String
  slots : List Slot
  returnType : TypeExpr
  result : TypeVar
  deriving BEq, Repr, Inhabited

def genericParams (slots : List Slot) (result : TypeVar) : List TypeVar :=
  addNew [] (slots.map Slot.generic ++ [result])

/-- The generic parameters of a plan: slot variables in slot order, then the result's. -/
def Plan.typeParams (p : Plan) : List TypeVar := genericParams p.slots p.result

def Plan.arity (p : Plan) : Nat := p.slots.length

def ReturnShape.type : ReturnShape → TypeExpr
  | arrayOfResult => .array (.var .result)
  | result => .var .result

/-- The shape of what a function with such a callback returns, unless it is overridden. -/
def CallbackArity.returnShape : CallbackArity → ReturnShape
  | unary => .arrayOfResult
  | binary => .result

/-- The name of the plain argument at `position`, counted from one. -/
def argName (position : Nat) : String := "arg" ++ toString position

namespace Slot

def iteratee (k : CallbackArity) (v : TypeVar) : Slot :=
  ⟨"iteratee", .iteratee k (.var v) (.var .result), v, .iteratee⟩

def extraArg (position : Nat) (v : TypeVar) : Slot :=
  ⟨argName position, .var v, v, .extraArg⟩

def collection (v : TypeVar) : Slot :=
  ⟨"collection", .collection (.var v), v, .collection⟩

def positional (position : Nat) (v : TypeVar) : Slot :=
  ⟨argName position, .var v, v, .positional⟩

end Slot

namespace FunctionRecord

/-- The variable for the slot at `index`, counted from zero. -/
def bindVar (f : FunctionRecord) (index : Nat) : Except SignatureError TypeVar :=
  match TypeVar.forSlot index with
  | some v => .ok v
  | none => .error (.alphabetExhausted f.name (max f.arity (index + 1)))

/-- `count` slots in a row, the first of them at `index`. -/
def bindSlots (f : FunctionRecord) (slot : Nat → TypeVar → Slot) :
    (count index : Nat) → Except SignatureError (List Slot)
  | 0, _ => .ok []
  | count + 1, index => do
    let v ← f.bindVar index
    let rest ← f.bindSlots slot count (index + 1)
    return slot (index + 1) v :: rest

def rejectSpread (f : FunctionRecord) : Except SignatureError Unit :=
  match f.spreadStart with
  | some start => .error (.spreadNotSupported f.name start)
  | none => .ok ()

def iterateeSlots (f : FunctionRecord) (k : CallbackArity) :
    Except SignatureError (List Slot) := do
  let first ← f.bindVar 0
  let extra ← f.bindSlots Slot.extraArg (f.arity - 2) 1
  let last ← f.bindVar (f.arity - 1)
  return Slot.iteratee k first :: extra ++ [Slot.collection last]

def planIteratee (f : FunctionRecord) (declared : Nat) : Except SignatureError Plan := do
  if f.arity < 2 then
    .error (.iterateeWithoutData f.name f.arity)
  else
    match CallbackArity.ofDeclared declared with
    | none => .error (.unsupportedIterateeArity f.name declared)
    | some k => do
      f.rejectSpread
      let slots ← f.iterateeSlots k
      return ⟨f.name, slots, (f.returnShape.getD k.returnShape).type, .result⟩

def planFlat (f : FunctionRecord) : Except SignatureError Plan := do
  f.rejectSpread
  let slots ← f.bindSlots Slot.positional f.arity 0
  return ⟨f.name, slots, (f.returnShape.getD .result).type, .result⟩

def checkCount (f : FunctionRecord) (p : Plan) : Except SignatureError Plan :=
  if p.slots.length = f.arity then .ok p
  else .error (.parameterCountMismatch f.name f.arity p.slots.length)

/-- Lays out the parameters and the final return type of a function. -/
def plan (f : FunctionRecord) : Except SignatureError Plan := do
  let p ← match f.iterateeArity with
    | some declared => f.planIteratee declared
    | none => f.planFlat
  f.checkCount p

end FunctionRecord

end CurriedTypings
