import CurriedTypings.Currying
import CurriedTypings.TypeExpr

/-!
# The ambient module

Curried functions are declared in one ambient module: a header line, the helper
types every signature refers to, one block per function, and a closing brace.

    declare module 'lodash/fp' {
      type ObjectOf<T> = { [key: string]: T } | { [key: number]: T };
      …
      // lodash/fp/map
      export function map<A, B, Z>(iteratee: Iteratee1<A, Z>): Curry1<CollectionOf<B>, Z[]>;
      export function map<A, B, Z>(iteratee: Iteratee1<A, Z>, collection: CollectionOf<B>): Z[];
      // lodash/fp/pluck
      export const pluck: typeof map;

    }

An `Emitter` writes these parts into a buffer at its current indentation. The
header opens a level and the footer closes one; every other part leaves the level
as it found it. The buffer may be taken out between any two parts, so a module can
be written piece by piece; and since a block does not depend on what was written
before it, blocks may also be rendered on their own and put together afterwards.
-/

namespace CurriedTypings

structure ModuleOptions where
  moduleName : String := "lodash/fp"
  /-- What precedes a function's name in its marker comment. -/
  docPrefix : String := "lodash/fp/"
  deriving DecidableEq, Repr, Inhabited

def indentUnit : String := "  "

def indentation : Nat → String
  | 0 => ""
  | level + 1 => indentUnit ++ indentation level

/-- One overload without its keyword and name:
`(iteratee: Iteratee1<A, Z>, collection: CollectionOf<B>): Z[]`. -/
def Overload.signature (o : Overload) : String :=
  "(" ++ commaSeparated (o.slots.map fun s => s.name ++ ": " ++ s.type.print) ++ "): " ++
    o.returnType.print

/-- Writes the parts of a module into a buffer. -/
structure Emitter where
  options : ModuleOptions
  level : Nat := 0
  buffer : String := ""
  deriving DecidableEq, Repr, Inhabited

namespace Emitter

def statement (e : Emitter) (text : String) : Emitter :=
  { e with buffer := e.buffer ++ (indentation e.level ++ text ++ "\n") }

def statements (e : Emitter) (texts : List String) : Emitter :=
  texts.foldl statement e

/-- Ends a line, or writes an empty one. -/
def blankLine (e : Emitter) : Emitter :=
  { e with buffer := e.buffer ++ "\n" }

def indent (e : Emitter) : Emitter := { e with level := e.level + 1 }

def dedent (e : Emitter) : Emitter := { e with level := e.level - 1 }

def header (e : Emitter) : Emitter :=
  (e.statement ("declare module '" ++ e.options.moduleName ++ "' \x7b")).indent

def footer (e : Emitter) : Emitter :=
  e.dedent.statement "\x7d"

def continuation (e : Emitter) (d : ContinuationDefinition) : Emitter :=
  let opened := (e.statement
    ("interface " ++ continuationName d.arity ++ TypeVar.paramList d.typeParams ++ " \x7b")).indent
  let filled := opened.statements (d.signatures.map fun s => s.signature ++ ";")
  filled.dedent.statement "\x7d"

def callback (e : Emitter) (k : CallbackArity) : Emitter :=
  e.statement ("type " ++ k.typeName ++ "<T, R> = " ++ k.arrow "T" "R" ++ ";")

/-- Declares the helper types: containers, continuation interfaces, callbacks. -/
def helpers (e : Emitter) (definitions : List ContinuationDefinition) : Emitter :=
  let containers := (e.statements
    ["type " ++ objectName ++ "<T> = \x7b [key: string]: T \x7d | \x7b [key: number]: T \x7d;",
      "type " ++ collectionName ++ "<T> = " ++ objectName ++ "<T> | T[];"]).blankLine
  let interfaces := definitions.foldl (fun e d => (e.continuation d).blankLine) containers
  ((interfaces.callback .unary).callback .binary).blankLine

/-- Names what the following statements declare. -/
def marker (e : Emitter) (name : String) : Emitter :=
  e.statement ("// " ++ e.options.docPrefix ++ name)

def reexport (e : Emitter) (b : AliasBinding) : Emitter :=
  (e.marker b.name).statement ("export const " ++ b.name ++ ": typeof " ++ b.target ++ ";")

/-- Declares a function: its marker, one statement per overload, then its aliases. -/
def function (e : Emitter) (c : CurriedFunction) : Emitter :=
  let generics := TypeVar.paramList c.plan.typeParams
  let declared := (e.marker c.name).statements
    (c.overloads.map fun o => "export function " ++ c.name ++ generics ++ o.signature ++ ";")
  (c.aliases.foldl reexport declared).blankLine

/-- Takes out what has been written; the buffer is empty afterwards. -/
def take (e : Emitter) : Emitter × String :=
  ({ e with buffer := "" }, e.buffer)

def module (e : Emitter) (definitions : List ContinuationDefinition)
    (functions : List CurriedFunction) : Emitter × String :=
  (functions.foldl function (e.header.helpers definitions)).footer.take

def functionBlock (options : ModuleOptions) (c : CurriedFunction) : String :=
  ({ options, level := 1 : Emitter }.function c).buffer

inductive Step where
  | header
  | footer
  | helpers (definitions : List ContinuationDefinition)
  | function (c : CurriedFunction)
  | reexport (b : AliasBinding)
  | module (definitions : List ContinuationDefinition) (functions : List CurriedFunction)
  | take
  deriving Repr

/-- Does one step; the text is what the step hands out, empty if it only writes. -/
def step (e : Emitter) : Step → Emitter × String
  | .header => (e.header, "")
  | .footer => (e.footer, "")
  | .helpers definitions => (e.helpers definitions, "")
  | .function c => (e.function c, "")
  | .reexport b => (e.reexport b, "")
  | .module definitions functions => e.module definitions functions
  | .take => e.take

def run (e : Emitter) : List Step → Emitter × List String
  | [] => (e, [])
  | s :: rest =>
    let (e', text) := e.step s
    let (last, texts) := e'.run rest
    (last, text :: texts)

end Emitter

end CurriedTypings
