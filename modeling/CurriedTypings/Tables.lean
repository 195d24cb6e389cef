import CurriedTypings.Store

/-!
# Mapping tables

Metadata comes as six tables. The main one lists function names under the arity
they are capped to; the others hold aliases (in both directions), spread
arguments, callback arities and return shapes. All tables keep the order in which
their keys were first given.

A store is built from tables in three steps: the groups of the main table are
scanned in order, every auxiliary entry has to be about a function listed there,
and the entries of each function are put together into its record. Aliases are the
exception: those of functions the main table does not list are ignored, since a
library has functions that need no typing of their own.
-/

namespace CurriedTypings

/-! ## White space -/

namespace Text

/-- The code points with the property `White_Space`, as ranges. -/
def blankRanges : List (Nat × Nat) :=
  [(0x09, 0x0D), (0x20, 0x20), (0x85, 0x85), (0xA0, 0xA0), (0x1680, 0x1680),
    (0x2000, 0x200A), (0x2028, 0x2029), (0x202F, 0x202F), (0x205F, 0x205F), (0x3000, 0x3000)]

def isBlank (c : Char) : Bool :=
  blankRanges.any fun (low, high) => low ≤ c.toNat && c.toNat ≤ high

def trim (cs : List Char) : List Char :=
  ((cs.dropWhile isBlank).reverse.dropWhile isBlank).reverse

end Text

/-! ## Arity keys

An arity is written as a decimal numeral. White space around the numeral and a plus
sign before it are allowed, so `"2"`, `"02"` and `" +2 "` name the same arity. -/

namespace ArityKey

def limit : Nat := Nat.pow 2 64

def value (digits : List Char) : Nat :=
  digits.foldl (fun n c => n * 10 + (c.toNat - '0'.toNat)) 0

def isNumeral (cs : List Char) : Bool := !cs.isEmpty && cs.all Char.isDigit

def dropPlus : List Char → List Char
  | '+' :: cs => cs
  | cs => cs

def read? (key : String) : Option Nat :=
  let digits := dropPlus (Text.trim key.toList)
  if isNumeral digits && value digits < limit then some (value digits) else none

end ArityKey

/-! ## Tables and their store -/

structure Spread where
  /-- Index of the argument that is the array. -/
  start : Nat
  /-- Whether the index counts the arguments as rearranged. -/
  afterRearg : Bool := false
  deriving DecidableEq, Repr, Inhabited

structure Tables where
  /-- Function names by arity key. -/
  groups : Table (List String)
  targetOf : Table String := []
  aliasesOf : Table (List String) := []
  spreads : Table Spread := []
  iterateeArities : Table Nat := []
  returnShapes : Table ReturnShape := []
  deriving DecidableEq, Repr, Inhabited

namespace Tables

def bindAlias (merged : Table (List String)) (name target : String) : Table (List String) :=
  merged.alter target fun known => insertNew (known.getD []) name

/-- The aliases of each function, from both alias tables. -/
def aliasesByTarget (t : Tables) : Table (List String) :=
  t.targetOf.foldl (fun merged (name, target) => bindAlias merged name target) t.aliasesOf

def declareNames (arity : Nat) (declared : Table Nat) :
    List String → Except MetadataError (Table Nat)
  | [] => .ok declared
  | name :: rest =>
    match declared.get? name with
    | some first => .error (.duplicateDeclaration name first arity)
    | none => declareNames arity (declared ++ [(name, arity)]) rest

def declareGroup (declared : Table Nat) (group : String × List String) :
    Except MetadataError (Table Nat) :=
  match ArityKey.read? group.1 with
  | none => .error (.invalidArityKey group.1)
  | some arity => declareNames arity declared group.2

/-- The functions the main table lists, with their arities, in table order. -/
def declarations (t : Tables) : Except MetadataError (Table Nat) :=
  t.groups.foldlM declareGroup []

/-- Refuses the first key that is not declared. -/
def checkEntries {α : Type} (declared : Table Nat) (table : TableName) (entries : Table α) :
    Except MetadataError Unit :=
  match entries.keys.find? fun name => (declared.get? name).isNone with
  | some name => .error (.unknownTableEntry table name)
  | none => .ok ()

/-- All that the tables say about a function of this name and arity. -/
def recordOf (t : Tables) (aliases : Table (List String)) (declaration : String × Nat) :
    FunctionRecord where
  name := declaration.1
  arity := declaration.2
  aliases := addNew [] ((aliases.get? declaration.1).getD [])
  spreadStart := (t.spreads.get? declaration.1).map Spread.start
  iterateeArity := t.iterateeArities.get? declaration.1
  returnShape := t.returnShapes.get? declaration.1

end Tables

def Store.ofTables (t : Tables) : Except MetadataError Store := do
  let declared ← t.declarations
  Tables.checkEntries declared .methodSpread t.spreads
  Tables.checkEntries declared .iterateeAry t.iterateeArities
  Tables.checkEntries declared .returnShape t.returnShapes
  Store.ofRecords (declared.map (t.recordOf t.aliasesByTarget))

end CurriedTypings
