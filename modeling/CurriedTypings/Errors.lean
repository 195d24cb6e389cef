import CurriedTypings.TypeExpr

/-!
# What can go wrong

Everything that stops a run of the generator, output failures apart, is a defect
of its input: the metadata or the doc entries are wrong or inconsistent, or they
describe a shape outside the closed set of signatures the generator knows. There are
three families of defects, by the stage that finds them. Each defect has a class
(`kind`), which decides its label in a report and the exit status of the process,
and is put into words by `message`.

The words for a document that cannot be read say what is wrong, not where: the place
in the text is no part of them.
-/

namespace CurriedTypings

/-! ## Classes -/

/-- The class of a fatal defect. -/
inductive ErrorKind where
  | configuration
  /-- A shape outside the supported set: too many parameters, too wide a
  continuation, or a spread argument. -/
  | unsupportedArity
  deriving DecidableEq, Repr, Inhabited

namespace ErrorKind

def label : ErrorKind → String
  | configuration => "configuration error"
  | unsupportedArity => "unsupported arity"

def exitStatus : ErrorKind → Nat
  | configuration => 1
  | unsupportedArity => 2

end ErrorKind

/-! ## Metadata

The defects of mapping tables and record lists, and the one defect of a request:
to ask for a function that is not declared. All of them are configuration errors. -/

inductive TableName where
  | aryMethod | aliasToReal | realToAlias | methodSpread | iterateeAry | returnShape
  deriving DecidableEq, Repr, Inhabited

namespace TableName

def text : TableName → String
  | aryMethod => "aryMethod"
  | aliasToReal => "aliasToReal"
  | realToAlias => "realToAlias"
  | methodSpread => "methodSpread"
  | iterateeAry => "iterateeAry"
  | returnShape => "returnShape"

def all : List TableName :=
  [aryMethod, aliasToReal, realToAlias, methodSpread, iterateeAry, returnShape]

def ofText? (s : String) : Option TableName := all.find? (·.text = s)

end TableName

inductive MetadataError where
  | undeclaredFunction (name : String)
  | zeroArity (name : String)
  | invalidArityKey (key : String)
  | duplicateDeclaration (name : String) (first second : Nat)
  | unknownTableEntry (table : TableName) (name : String)
  | aliasShadowsFunction (name target : String)
  | duplicateAlias (name first second : String)
  /-- The document could not be read; `reason` says why. -/
  | malformed (reason : String)
  deriving DecidableEq, Repr, Inhabited

namespace MetadataError

def kind (_ : MetadataError) : ErrorKind := .configuration

def message : MetadataError → String
  | undeclaredFunction name =>
    "function '" ++ name ++ "' is not declared in the metadata table"
  | zeroArity name => "function '" ++ name ++ "' must accept at least one argument"
  | invalidArityKey key => "'" ++ key ++ "' is not a valid arity in aryMethod"
  | duplicateDeclaration name first second =>
    "function '" ++ name ++ "' is declared with arity " ++ toString first ++
      " and again with arity " ++ toString second
  | unknownTableEntry table name =>
    table.text ++ " entry '" ++ name ++ "' does not name a declared function"
  | aliasShadowsFunction name target =>
    "alias '" ++ name ++ "' of '" ++ target ++ "' shadows a declared function"
  | duplicateAlias name first second =>
    "alias '" ++ name ++ "' is bound to both '" ++ first ++ "' and '" ++ second ++ "'"
  | malformed reason => "malformed metadata document: " ++ reason

end MetadataError

/-! ## Signatures

The causes for which a record cannot be planned or curried. The bounds named in
the messages are those of the closed set of shapes: callbacks take one or two
arguments, parameters share four generic variables, and a partial application
leaves at most three parameters outstanding. -/

def maxIterateeArity : Nat := 2

/-- The largest number of parameters a continuation may wait for. -/
def maxContinuationWidth : Nat := 3

inductive SignatureError where
  /-- A function with a callback takes nothing the callback could be applied to. -/
  | iterateeWithoutData (function : String) (arity : Nat)
  | unsupportedIterateeArity (function : String) (arity : Nat)
  /-- The plan has another number of parameters than the record declares. -/
  | parameterCountMismatch (function : String) (arity planned : Nat)
  | emptyParameterList
  /-- A partial application would leave too many parameters outstanding. -/
  | continuationTooWide (remaining : Nat)
  | alphabetExhausted (function : String) (needed : Nat)
  | spreadNotSupported (function : String) (start : Nat)
  deriving DecidableEq, Repr, Inhabited

namespace SignatureError

/-- Whether the record is wrong or its shape is not covered. -/
def kind : SignatureError → ErrorKind
  | iterateeWithoutData .. | unsupportedIterateeArity .. | parameterCountMismatch ..
  | emptyParameterList => .configuration
  | continuationTooWide _ | alphabetExhausted .. | spreadNotSupported .. => .unsupportedArity

def message : SignatureError → String
  | iterateeWithoutData function arity =>
    "iteratee-bearing function '" ++ function ++
      "' must accept a data argument (declared arity " ++ toString arity ++ ")"
  | unsupportedIterateeArity function arity =>
    "function '" ++ function ++ "' declares iteratee arity " ++ toString arity ++
      "; supported arities are 1..=" ++ toString maxIterateeArity
  | parameterCountMismatch function arity planned =>
    "planning '" ++ function ++ "' produced " ++ toString planned ++
      " parameters for declared arity " ++ toString arity
  | emptyParameterList => "a function with no parameters cannot be curried"
  | continuationTooWide remaining =>
    "continuation over " ++ toString remaining ++ " parameters is not supported (maximum " ++
      toString maxContinuationWidth ++ ")"
  | alphabetExhausted function needed =>
    "function '" ++ function ++ "' needs " ++ toString needed ++
      " generic parameters; only " ++ toString TypeVar.slotVars.length ++ " are available"
  | spreadNotSupported function start =>
    "function '" ++ function ++ "' spreads arguments from index " ++ toString start ++
      "; currying spread functions is not supported"

end SignatureError

/-! ## Doc entries -/

namespace Docs

inductive Error where
  | patternMismatch (input pattern : String)
  | unknownCategory (function category : String)
  /-- An entry does not have the parameters its category asks for. -/
  | assertionFailed (function reason : String)
  | malformed (reason : String)
  deriving DecidableEq, Repr, Inhabited

namespace Error

def kind (_ : Error) : ErrorKind := .configuration

def message : Error → String
  | patternMismatch input pattern => "'" ++ input ++ "' didn't match " ++ pattern
  | unknownCategory function category =>
    "function '" ++ function ++ "' has unknown category '" ++ category ++ "'"
  | assertionFailed function reason => "function '" ++ function ++ "': " ++ reason
  | malformed reason => "malformed doc entries: " ++ reason

end Error

end Docs

end CurriedTypings
