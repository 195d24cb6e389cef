import CurriedTypings.TypeExpr

/-!
# Types read back

A printed type is read from left to right, one character at a time. What has been
read is a number of argument lists that are still open, innermost first, and behind
them the piece that is being read:

    Curry2<B, CollectionOf<C        open: CollectionOf<, Curry2<B,     pending: C

A closing bracket turns the innermost list, with the pending type as its last
argument, into the type it belongs to (`applied?`). Since a type may be followed by
more text, reading stops where no list is open and an argument would end.
-/

namespace CurriedTypings

namespace TypeExpr

def varNamed? (name : String) : Option TypeVar :=
  (TypeVar.slotVars ++ [TypeVar.result]).find? fun v => v.name = name

/-- The helper type that a composite type refers to, with its arguments. -/
def reference? : TypeExpr → Option (String × List TypeExpr)
  | var _ => none
  | array _ => none
  | collection element => some (collectionName, [element])
  | iteratee k value result => some (k.typeName, [value, result])
  | continuation remaining result =>
    some (continuationName remaining.length, remaining ++ [result])

def composites (args : List TypeExpr) : List TypeExpr :=
  (args.getLast?.map (continuation args.dropLast)).toList ++
    match args with
    | [element] => [collection element]
    | [value, result] => [iteratee .unary value result, iteratee .binary value result]
    | _ => []

/-- The type that a reference to a helper type stands for. -/
def applied? (name : String) (args : List TypeExpr) : Option TypeExpr :=
  (composites args).find? fun t => t.reference?.map Prod.fst = some name

namespace Reader

structure Frame where
  name : String
  args : List TypeExpr
  deriving Repr, Inhabited

inductive Pending where
  /-- A name, which may turn out to be that of a variable or of a helper type. -/
  | name (read : List Char)
  | type (t : TypeExpr)
  /-- A type and the bracket that opens its postfix. -/
  | bracket (t : TypeExpr)
  /-- An argument and the comma behind it. -/
  | comma (t : TypeExpr)
  deriving Repr, Inhabited

def Pending.type? : Pending → Option TypeExpr
  | name read => (varNamed? (String.ofList read)).map var
  | type t => some t
  | bracket _ => none
  | comma _ => none

end Reader

open Reader

structure Reader where
  lists : List Frame := []
  pending : Pending := .name []
  deriving Repr, Inhabited

namespace Reader

def step (r : Reader) (c : Char) : Option Reader :=
  match c with
  | '<' =>
    match r.pending with
    | .name read => some ⟨⟨String.ofList read, []⟩ :: r.lists, .name []⟩
    | _ => none
  | '>' =>
    match r.lists, r.pending.type? with
    | f :: outer, some t => (applied? f.name (f.args ++ [t])).map fun u => ⟨outer, .type u⟩
    | _, _ => none
  | ',' => r.pending.type?.map fun t => ⟨r.lists, .comma t⟩
  | ' ' =>
    match r.lists, r.pending with
    | f :: outer, .comma t => some ⟨⟨f.name, f.args ++ [t]⟩ :: outer, .name []⟩
    | _, _ => none
  | '[' => r.pending.type?.map fun t => ⟨r.lists, .bracket t⟩
  | ']' =>
    match r.pending with
    | .bracket t => some ⟨r.lists, .type (.array t)⟩
    | _ => none
  | c =>
    match r.pending with
    | .name read => if c.isAlphanum then some ⟨r.lists, .name (read ++ [c])⟩ else none
    | _ => none

def result? (r : Reader) : Option TypeExpr :=
  if r.lists.isEmpty then r.pending.type? else none

/-- Whether this character is no part of the type, but ends an argument list around it or an
argument of it. -/
def endsBefore (r : Reader) (c : Char) : Bool :=
  r.lists.isEmpty && (c = ',' || c = '>')

/-- Reads to the end of the type; yields it with the text behind it. -/
def readFrom (r : Reader) : List Char → Option (TypeExpr × List Char)
  | [] => r.result?.map fun t => (t, [])
  | c :: cs =>
    if r.endsBefore c then r.result?.map fun t => (t, c :: cs)
    else (r.step c).bind fun r' => r'.readFrom cs

end Reader

/-- The type at the start of a text, as far as an argument goes, and the text behind it. -/
def readArgument (text : String) : Option (TypeExpr × String) :=
  (Reader.readFrom {} text.toList).map fun (t, rest) => (t, String.ofList rest)

def read (text : String) : Option TypeExpr :=
  match readArgument text with
  | some (t, rest) => if rest.isEmpty then some t else none
  | none => none

end TypeExpr

end CurriedTypings
