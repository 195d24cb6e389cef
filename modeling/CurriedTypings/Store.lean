import CurriedTypings.Errors
import CurriedTypings.FunctionRecord
import CurriedTypings.Table

/-!
# The store of declared functions

A store answers every question about a fixed set of declared functions. It keeps
three things that have to fit together: the records by name, the function behind
each alias, and the declared names in order. It is built once from a list of
records and checked while it is built:

- the records are entered one by one in the order given, and the first one with
  arity zero or with a name seen before is refused;
- then the names are put in order, and in that order each alias of each function is
  entered into the index of aliases; the first alias that is itself a declared name,
  or that already stands for another function, is refused.

Name order makes the second half independent of the order of the input, and it is
the order in which the store lists its records.
-/

namespace CurriedTypings

structure Store where
  functions : Table FunctionRecord := []
  /-- The function each alias stands for. -/
  aliasIndex : Table String := []
  names : List String := []
  deriving DecidableEq, Repr, Inhabited

namespace Store

def empty : Store := {}

/-- Enters a record, unless it takes no arguments or its name was declared before. -/
def declare (functions : Table FunctionRecord) (f : FunctionRecord) :
    Except MetadataError (Table FunctionRecord) :=
  if f.arity = 0 then
    .error (.zeroArity f.name)
  else
    match functions.get? f.name with
    | some g => .error (.duplicateDeclaration f.name g.arity f.arity)
    | none => .ok (functions.put f.name f)

def sortNames (names : List String) : List String := names.mergeSort fun a b => a ≤ b

def indexAlias (functions : Table FunctionRecord) (f : FunctionRecord)
    (index : Table String) (name : String) : Except MetadataError (Table String) :=
  if functions.contains name then
    .error (.aliasShadowsFunction name f.name)
  else
    match index.get? name with
    | none => .ok (index.put name f.name)
    | some first =>
      if first = f.name then .ok (index.put name f.name)
      else .error (.duplicateAlias name first f.name)

/-- Enters the aliases of `f` into the index, in order. -/
def indexAliasesOf (functions : Table FunctionRecord) (index : Table String)
    (f : FunctionRecord) : Except MetadataError (Table String) :=
  f.aliases.foldlM (indexAlias functions f) index

def recordsOf (functions : Table FunctionRecord) (names : List String) : List FunctionRecord :=
  names.filterMap functions.get?

def ofRecords (records : List FunctionRecord) : Except MetadataError Store := do
  let functions ← records.foldlM declare []
  let names := sortNames functions.keys
  let aliasIndex ← (recordsOf functions names).foldlM (indexAliasesOf functions) []
  return { functions, aliasIndex, names }

variable (s : Store)

def get? (name : String) : Option FunctionRecord := s.functions.get? name

def get (name : String) : Except MetadataError FunctionRecord :=
  match s.get? name with
  | some f => .ok f
  | none => .error (.undeclaredFunction name)

def contains (name : String) : Bool := s.functions.contains name

def arity (name : String) : Except MetadataError Nat := FunctionRecord.arity <$> s.get name

def aliases (name : String) : Except MetadataError (List String) :=
  FunctionRecord.aliases <$> s.get name

def spreadStart (name : String) : Except MetadataError (Option Nat) :=
  FunctionRecord.spreadStart <$> s.get name

def iterateeArity (name : String) : Except MetadataError (Option Nat) :=
  FunctionRecord.iterateeArity <$> s.get name

/-- The function a name is an alias of. -/
def resolveAlias? (name : String) : Option String := s.aliasIndex.get? name

def records : List FunctionRecord := recordsOf s.functions s.names

/-- The names of the functions without a spread argument, in order. -/
def curriableNames : List String :=
  (s.records.filter fun f => f.spreadStart.isNone).map FunctionRecord.name

/-- The names of the functions that take a callback, in order. -/
def iterateeNames : List String :=
  (s.records.filter fun f => f.iterateeArity.isSome).map FunctionRecord.name

def size : Nat := s.functions.length

def isEmpty : Bool := s.functions.isEmpty

end Store

end CurriedTypings
