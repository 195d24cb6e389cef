import CurriedTypings.Generation

/-!
# Diagnostics

A failed run ends in a chain of causes: contexts that were added on the way, from
the outermost inwards, then the error itself, then what lies behind it. The report
is about the outermost cause that is a classified defect, and the causes above it
become notes. Only a chain without any classified defect, such as a file that
cannot be read, is reported as a whole.

What a user sees of a finished run is such a diagnostic with its notes below it, the
chain of causes of an unclassified failure, or the totals of a successful run. On a
terminal that shows colors, labels and function names are set off by ANSI styles.
-/

namespace CurriedTypings

/-! ## Causes -/

inductive Cause where
  | generation (error : GenerationError)
  | metadata (error : MetadataError)
  | signature (error : SignatureError)
  | docs (error : Docs.Error)
  /-- A context, or an error of no known class. -/
  | other (message : String)
  deriving DecidableEq, Repr, Inhabited

namespace Cause

def message : Cause → String
  | generation e => e.message
  | metadata e => e.message
  | signature e => e.message
  | docs e => e.message
  | other message => message

/-- What lies behind a cause. A defect of the metadata met during generation stands for
itself; the other failures of a run are wrappers. -/
def behind : Cause → List Cause
  | generation (.signature _ e) => [signature e]
  | generation (.output reason) => [other reason]
  | _ => []

end Cause

/-- A failure: an error, and the contexts added to it, the outermost first. -/
structure Failure where
  contexts : List String := []
  error : Cause
  deriving DecidableEq, Repr, Inhabited

namespace Failure

def within (f : Failure) (context : String) : Failure :=
  { f with contexts := context :: f.contexts }

def chain (f : Failure) : List Cause :=
  f.contexts.map Cause.other ++ f.error :: f.error.behind

end Failure

/-- A classified defect, ready to be reported. -/
structure Diagnostic where
  kind : ErrorKind
  function : Option String := none
  message : String
  notes : List String := []
  deriving DecidableEq, Repr, Inhabited

namespace Diagnostic

def inFunction (d : Diagnostic) (name : String) : Diagnostic := { d with function := some name }

def withNote (d : Diagnostic) (note : String) : Diagnostic :=
  { d with notes := d.notes ++ [note] }

def ofCause? : Cause → Option Diagnostic
  | .generation e => e.kind?.map fun kind => { kind, function := e.function?, message := e.message }
  | .metadata e =>
    some { kind := e.kind, function := function? e, message := e.message }
  | .signature e => some { kind := e.kind, message := e.message }
  | .docs e => some { kind := e.kind, message := e.message }
  | .other _ => none
where
  function? : MetadataError → Option String
    | .undeclaredFunction name => some name
    | _ => none

/-- Looks for a classified defect below causes that have been found not to be one. -/
def search (above : List String) : List Cause → Option Diagnostic
  | [] => none
  | c :: rest =>
    match ofCause? c with
    | some d => some (above.foldl withNote d)
    | none => search (above ++ [c.message]) rest

def ofChain? (chain : List Cause) : Option Diagnostic := search [] chain

end Diagnostic

def exitStatus (d : Option Diagnostic) : Nat :=
  match d with
  | some d => d.kind.exitStatus
  | none => 1

/-! ## Reports -/

inductive Summary where
  | declarations (report : Report)
  | docs (lines : Nat)
  deriving DecidableEq, Repr, Inhabited

inductive Style where
  | boldRed | boldYellow | boldCyan | boldGreen | brightBlue
  deriving DecidableEq, Repr

namespace Style

def reset : String := "\x1b[0m"

def start : Style → String
  | boldRed => "\x1b[1;31m"
  | boldYellow => "\x1b[1;33m"
  | boldCyan => "\x1b[1;36m"
  | boldGreen => "\x1b[1;32m"
  | brightBlue => "\x1b[94m"

/-- A text in a style. Where the text itself ends a style, this one starts again. -/
def paint (style : Style) (text : String) : String :=
  style.start ++ text.replace reset (reset ++ style.start) ++ reset

end Style

def ErrorKind.style : ErrorKind → Style
  | configuration => .boldRed
  | unsupportedArity => .boldYellow

structure Reporter where
  color : Bool
  deriving DecidableEq, Repr

namespace Reporter

def paint (r : Reporter) (style : Style) (text : String) : String :=
  if r.color then style.paint text else text

/-- A diagnostic on one line, and each note on a line below it. -/
def diagnostic (r : Reporter) (d : Diagnostic) : String :=
  r.paint d.kind.style d.kind.label ++
    (match d.function with
      | some name => " in " ++ r.paint .brightBlue ("'" ++ name ++ "'")
      | none => "") ++
    ": " ++ d.message ++
    String.join (d.notes.map fun note => "\n  " ++ r.paint .boldCyan "note" ++ ": " ++ note)

def unclassified (r : Reporter) (chain : List Cause) : String :=
  r.paint .boldRed "error" ++ ": " ++ ": ".intercalate (chain.map Cause.message)

def failure (r : Reporter) (chain : List Cause) : String :=
  match Diagnostic.ofChain? chain with
  | some d => r.diagnostic d
  | none => r.unclassified chain

def summary (r : Reporter) (s : Summary) : String :=
  r.paint .boldGreen "generated" ++ " " ++
    (match s with
      | .declarations report =>
        toString report.functions ++ " functions, " ++ toString report.overloads ++
          " overloads, " ++ toString report.aliases ++ " aliases"
      | .docs lines => toString lines ++ " doc declarations")

end Reporter

end CurriedTypings
