import CurriedTypings.Builtin
import CurriedTypings.CommandLine.Arguments
import CurriedTypings.CommandLine.System
import CurriedTypings.Diagnostic
import CurriedTypings.Docs
import CurriedTypings.Tables.Document

/-!
# Runs

A run reads at most one file, renders everything it is going to write, and only
then writes: at once to a file if one was named, otherwise operation by operation to
the standard output. So a run that fails before it writes leaves no trace. `render` is
the part between reading and writing, and knows nothing of a system; `attempt` puts it
between the two, and `run` reports what has come of it.
-/

namespace CurriedTypings.CommandLine

abbrev Input := Except FileError String

def Arguments.inputFile? (a : Arguments) : Option String := a.docs <|> a.metadata

def readInput (what path : String) : Input → Except Failure String
  | .ok text => .ok text
  | .error e =>
    .error { contexts := ["failed to read " ++ what ++ " " ++ path], error := .other e.message }

def loadStore (a : Arguments) (input : Input) : Except Failure Store :=
  match a.metadata with
  | some path => do
    let text ← readInput "metadata" path input
    match Store.ofDocument text with
    | .ok s => .ok s
    | .error e =>
      .error { contexts := ["invalid metadata in " ++ path], error := .metadata e }
  | none =>
    match Builtin.store with
    | .ok s => .ok s
    | .error e => .error { contexts := ["built-in lodash/fp metadata"], error := .metadata e }

/-- What a user is told who asks for an alias. -/
def aliasNote (name target : String) : String :=
  "'" ++ name ++ "' is an alias of '" ++ target ++ "'; aliases are emitted alongside their target"

/-- Refuses the first name that is not declared; if it is an alias, says of what. -/
def checkSelection (s : Store) (names : List String) : Except Failure Unit :=
  match names.find? fun name => !s.contains name with
  | none => .ok ()
  | some name =>
    let failure : Failure := { error := .metadata (.undeclaredFunction name) }
    match s.resolveAlias? name with
    | some target => .error (failure.within (aliasNote name target))
    | none => .error failure

/-- What is going to be written, operation by operation, and its totals. -/
structure Rendered where
  ops : List OutputOp
  summary : Summary
  deriving DecidableEq, Repr, Inhabited

def renderDeclarations (a : Arguments) (input : Input) : Except Failure Rendered := do
  let s ← loadStore a input
  let names := a.selection.resolve s
  checkSelection s names
  let (ops, result) :=
    if a.parallel then
      generateParallel opDestination s a.options (List.range names.length) names []
    else
      generate opDestination s a.options names []
  match result with
  | .ok report => .ok ⟨ops, .declarations report⟩
  | .error e => .error { error := .generation e }

def renderDocs (path : String) (input : Input) : Except Failure Rendered := do
  let source ← readInput "doc entries" path input
  let entries ← match Docs.ofDocument source with
    | .ok entries => .ok entries
    | .error e => .error ⟨["invalid doc entries in " ++ path], .docs e⟩
  match Docs.render entries with
  | .ok text => .ok ⟨[.write text, .flush], .docs (Docs.lineCount text)⟩
  | .error e => .error { error := .docs e }

def render (a : Arguments) (input : Input) : Except Failure Rendered :=
  match a.docs with
  | some path => renderDocs path input
  | none => renderDeclarations a input

/-! ## Writing -/

def writeFile {m : Type → Type} [Monad m] (sys : System m) (path text : String) :
    m (Except Failure Unit) := do
  let above := (Path.parent? path).getD ""
  match ← sys.createDirectories above with
  | .error e => return .error ⟨["failed to create directory " ++ above], .other e.message⟩
  | .ok () =>
    match ← sys.writeText path text with
    | .error e => return .error ⟨["failed to write " ++ path], .other e.message⟩
    | .ok () => return .ok ()

/-- What it means that the standard output could not be written. -/
def Arguments.printFailure (a : Arguments) (e : FileError) : Failure :=
  match a.docs with
  | some _ => ⟨["failed to write to stdout"], .other e.message⟩
  | none => { error := .generation (.output e.message) }

def deliver {m : Type → Type} [Monad m] (sys : System m) (a : Arguments) (ops : List OutputOp) :
    m (Except Failure Unit) := do
  match a.outFile with
  | some path => writeFile sys path (OutputOp.writtenText ops)
  | none =>
    match ← sys.printAll ops with
    | .error e => return .error (a.printFailure e)
    | .ok () => return .ok ()

/-! ## Runs -/

/-- All that a run does: its totals, or why it fails. -/
def attempt {m : Type → Type} [Monad m] (sys : System m) (a : Arguments) :
    m (Except Failure Summary) := do
  let input ← match a.inputFile? with
    | some path => sys.readText path
    | none => pure (.ok "")
  match render a input with
  | .error f => return .error f
  | .ok rendered =>
    match ← deliver sys a rendered.ops with
    | .error f => return .error f
    | .ok () => return .ok rendered.summary

structure Outcome where
  exit : Nat
  stderr : String
  deriving DecidableEq, Repr, Inhabited

def Outcome.of (r : Reporter) (a : Arguments) : Except Failure Summary → Outcome
  | .ok summary => ⟨0, if a.diagnostics then r.summary summary ++ "\n" else ""⟩
  | .error f => ⟨exitStatus (Diagnostic.ofChain? f.chain), r.failure f.chain ++ "\n"⟩

/-- A run. Colors are used if they are wanted and the terminal shows them. -/
def run {m : Type → Type} [Monad m] (sys : System m) (a : Arguments) (terminal : Bool) :
    m Outcome := do
  return .of ⟨!a.noColor && terminal⟩ a (← attempt sys a)

end CurriedTypings.CommandLine
