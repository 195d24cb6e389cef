import CurriedTypings.Errors
import CurriedTypings.Json.Typed
import CurriedTypings.Text.Pattern

/-!
# Documented functions

The documentation of a library comes as a list of entries, one for each documented
function. Rendering turns every public function into the declaration its category
has for it, one declaration per line; entries that are private or no functions are
left out, whatever they hold. The first defect in the order of the entries is
reported: within an entry an unknown category comes before a malformed tag, and
that before a parameter list that does not suit the category.

A documented parameter is a type text, a name text and a description:

    ...(Array|Object)   [values=1]   The values to use.

The type text is a list of alternatives between bars, optionally in parentheses,
with three dots in front if the parameter takes any number of arguments. The name
text is a bare name, or a name between brackets, possibly with a default, if the
parameter may be left out. Both texts are read leniently: parentheses and brackets
need not be balanced, as long as no closing parenthesis stands inside the type text
and no line break behind the name.

Every documented function belongs to one of eleven categories, and the category
decides how its parameters become a declaration. Array functions are declared over
one element type `T`; collection functions are only checked; the other categories
have no declarations yet.
-/

namespace CurriedTypings.Docs

/-! ## Parameter tags -/

open Text

structure ParamTag where
  type : String
  name : String
  description : String := ""
  deriving DecidableEq, Repr, Inhabited

structure Param where
  /-- The accepted types, at least one. -/
  types : List String
  name : String
  optional : Bool
  spread : Bool
  deriving DecidableEq, Repr, Inhabited

namespace ParamTag

/-- The form of a type text. Part 2 holds the alternatives, still in one piece. -/
def typePattern : Pattern :=
  [.optional ['.', '.', '.'], .optional ['('], .group [')'] true, .optional [')']]

/-- The form of a name text. Part 1 is the bare name. -/
def namePattern : Pattern :=
  [.optional ['['], .group ['=', ']'] false, .line, .optional [']']]

def optionalPattern : Pattern := [.literal ['['], .line, .literal [']']]

def spreadPattern : Pattern := [.literal ['.', '.', '.'], .line]

def capture (pattern : Pattern) (text : String) (index : Nat) : Except Error String :=
  match (pattern.parts? text.toList).bind (·[index]?) with
  | some part => .ok (String.ofList part)
  | none => .error (.patternMismatch text pattern.written)

/-- Reads a tag: its type text first, then its name text. -/
def parse (t : ParamTag) : Except Error Param := do
  let alternatives ← capture typePattern t.type 2
  let name ← capture namePattern t.name 1
  return {
    types := (alternatives.toList.splitOn '|').map String.ofList
    name := name
    optional := optionalPattern.fits t.name.toList
    spread := spreadPattern.fits t.type.toList }

end ParamTag

namespace Param

def hasTypes (p : Param) (expected : List String) : Bool := p.types = expected

def accepts (p : Param) (type : String) : Bool := p.types.contains type

end Param

/-! ## Categories -/

inductive Category where
  | util | seq | array | collection | date | function | lang | object | number | string | math
  deriving DecidableEq, Repr, Inhabited

namespace Category

def name : Category → String
  | util => "Util"
  | seq => "Seq"
  | array => "Array"
  | collection => "Collection"
  | date => "Date"
  | function => "Function"
  | lang => "Lang"
  | object => "Object"
  | number => "Number"
  | string => "String"
  | math => "Math"

def all : List Category :=
  [util, seq, array, collection, date, function, lang, object, number, string, math]

def ofName? (s : String) : Option Category := all.find? fun c => c.name = s

theorem ofName?_name (c : Category) : ofName? c.name = some c := by
  cases c <;> decide

end Category

/-! ## Array functions -/

namespace Param

/-- The type of one argument of an array function. Containers are told by their name, and
callbacks by their name as well once their type is known to be one. -/
def elementType (p : Param) : String :=
  if ["array", "arrays", "values"].contains p.name then "T[]"
  else if p.name = "value" && p.hasTypes ["*"] then "T"
  else if p.hasTypes ["Function"] then
    if p.name = "iteratee" then "(value: T) => any"
    else if p.name = "comparator" then "(a: T, b: T) => boolean"
    else if p.name = "predicate" then "(value: T) => boolean"
    else "Function"
  else if p.hasTypes ["*"] then "any"
  else "|".intercalate p.types

def arrayOf (type : String) : String :=
  if type.toList.contains '|' then "(" ++ type ++ ")[]" else type ++ "[]"

def declaredType (p : Param) : String :=
  if p.spread then arrayOf p.elementType else p.elementType

/-- A parameter of an array function; only the last one may take any number of arguments. -/
def declare (p : Param) (isLast : Bool) : String :=
  (if p.spread && isLast then "..." else "") ++ p.name ++ (if p.optional then "?" else "") ++
    ": " ++ p.declaredType

def declareAll : List Param → List String
  | [] => []
  | [p] => [p.declare true]
  | p :: ps => p.declare false :: declareAll ps

end Param

def arrayReturnType (documented : String) : String :=
  if documented = "Array" then "T[]"
  else if documented = "*" then "T"
  else documented

/-- The declaration of an array function, whose first parameter has to be an array. -/
def convertArray (function returnType : String) (params : List Param) : Except Error String :=
  if params.head?.any fun p => p.hasTypes ["Array"] then
    .ok (function ++ "<T>(" ++ ", ".intercalate (Param.declareAll params) ++ "): " ++
      arrayReturnType returnType)
  else
    .error (.assertionFailed function "first parameter of an Array function must be typed Array")

/-! ## Collection functions -/

def checkCollection (function : String) (params : List Param) : Except Error Unit :=
  if params.head?.any fun p => p.accepts "Array" && p.accepts "Object" then
    .ok ()
  else
    .error (.assertionFailed function
      "first parameter of a Collection function must accept Array and Object")

/-- The declaration of a function, if its category has any. -/
def Category.convert (c : Category) (function returnType : String) (params : List Param) :
    Except Error (Option String) :=
  match c with
  | array => some <$> convertArray function returnType params
  | collection => (fun _ => none) <$> checkCollection function params
  | _ => .ok none

/-! ## Entries -/

open Json

structure Entry where
  name : String
  category : String
  params : List ParamTag := []
  /-- Type and description of what is returned. -/
  returns : Option (String × String) := none
  isPrivate : Bool := false
  isFunction : Bool := true
  deriving DecidableEq, Repr, Inhabited

namespace Entry

def returnType (e : Entry) : String :=
  match e.returns with
  | some (type, _) => type
  | none => "void"

def isVisible (e : Entry) : Bool := e.isFunction && !e.isPrivate

def resolveCategory (e : Entry) : Except Error Category :=
  match Category.ofName? e.category with
  | some c => .ok c
  | none => .error (.unknownCategory e.name e.category)

def declaration (e : Entry) : Except Error (Option String) := do
  let c ← e.resolveCategory
  let params ← e.params.mapM ParamTag.parse
  c.convert e.name e.returnType params

def lineOf : Option String → String
  | some line => line ++ "\n"
  | none => ""

end Entry

def render : List Entry → Except Error String
  | [] => .ok ""
  | e :: es =>
    if e.isVisible then do
      let d ← e.declaration
      let rest ← render es
      return Entry.lineOf d ++ rest
    else
      render es

/-- The number of lines of a text; a last line that is empty does not count. -/
def lineCount (text : String) : Nat :=
  let cs := text.toList
  cs.count '\n' + (if cs.getLast?.all (· = '\n') then 0 else 1)

/-! ## Documents -/

namespace Entry

/-- What is known of an entry while it is read. -/
structure Draft where
  name : Option String := none
  category : Option String := none
  params : Option (List ParamTag) := none
  returns : Option (Option (String × String)) := none
  isPrivate : Option Bool := none
  isFunction : Option Bool := none
  deriving DecidableEq, Repr, Inhabited

def tagReader : Reader ParamTag := fun cs => do
  let ((type, name, description), rest) ← triple text text text cs
  .ok (⟨type, name, description⟩, rest)

def shape : Shape Draft where
  name := "struct DocEntry"
  fields :=
    [.of "name" true text Draft.name fun d a => { d with name := some a },
      .of "category" true text Draft.category fun d a => { d with category := some a },
      .of "params" false (list tagReader) Draft.params fun d a => { d with params := some a },
      .of "returns" false (optional (pair text text)) Draft.returns
        fun d a => { d with returns := some a },
      .of "private" false boolean Draft.isPrivate fun d a => { d with isPrivate := some a },
      .of "isFunction" false boolean Draft.isFunction fun d a => { d with isFunction := some a }]

def Draft.entry (d : Draft) : Entry where
  name := d.name.getD ""
  category := d.category.getD ""
  params := d.params.getD []
  returns := d.returns.getD none
  isPrivate := d.isPrivate.getD false
  isFunction := d.isFunction.getD true

def reader : Reader Entry := fun cs => do
  let (d, rest) ← shape.reader {} cs
  .ok (d.entry, rest)

end Entry

def ofDocument (source : String) : Except Error (List Entry) :=
  match document (list Entry.reader) source with
  | .ok es => .ok es
  | .error e => .error (.malformed e.message)

end CurriedTypings.Docs
