import CurriedTypings.Emitter
import CurriedTypings.Output
import CurriedTypings.Store

/-!
# Generation

A run declares the representative function, those that were named, or all of a kind.
Names are taken as they were given, in their order and with repetitions; whether they
are declared is found out by the run itself.

A run looks up, plans and curries every selected function before it writes
anything, so a defect never leaves declarations half written; the first defect in
the order of the names is reported. The module then goes out in chunks: the header
with the helper types, one chunk per function, and the footer.

A sequential run writes the chunks as one emitter produces them and flushes after
each function and at the end. A parallel run renders the blocks independently, in
whatever order a schedule prescribes, puts the results back into the order of the
names, and flushes only at the end.
-/

namespace CurriedTypings

/-! ## Selections -/

def representativeName : String := "map"

inductive Selection where
  | representative
  /-- Exactly these, in this order. -/
  | names (names : List String)
  /-- Every function without a spread argument. -/
  | curriable
  | iteratee
  deriving DecidableEq, Repr, Inhabited

def Selection.resolve (s : Store) : Selection → List String
  | .representative => [representativeName]
  | .names ns => ns
  | .curriable => s.curriableNames
  | .iteratee => s.iterateeNames

/-! ## Failures and totals -/

inductive GenerationError where
  | metadata (error : MetadataError)
  | signature (function : Option String) (error : SignatureError)
  | output (reason : String)
  deriving DecidableEq, Repr, Inhabited

namespace GenerationError

/-- The class of the defect; failures of the output are no defects of the metadata. -/
def kind? : GenerationError → Option ErrorKind
  | metadata e => some e.kind
  | signature _ e => some e.kind
  | output _ => none

def function? : GenerationError → Option String
  | metadata (.undeclaredFunction name) => some name
  | metadata _ => none
  | signature function _ => function
  | output _ => none

def message : GenerationError → String
  | metadata e => e.message
  | signature _ e => e.message
  | output reason => "failed to write declarations: " ++ reason

end GenerationError

structure Report where
  functions : Nat := 0
  overloads : Nat := 0
  aliases : Nat := 0
  deriving DecidableEq, Repr, Inhabited

def Report.add (r : Report) (c : CurriedFunction) : Report where
  functions := r.functions + 1
  overloads := r.overloads + c.overloads.length
  aliases := r.aliases + c.aliases.length

def Report.total (functions : List CurriedFunction) : Report := functions.foldl Report.add {}

namespace Generation

/-! ## Preparation -/

def prepareOne (s : Store) (name : String) : Except GenerationError CurriedFunction :=
  match s.get name with
  | .error e => .error (.metadata e)
  | .ok f =>
    match f.curried with
    | .error e => .error (.signature (some name) e)
    | .ok c => .ok c

/-- Looks up and curries functions, up to the first that fails. -/
def prepare (s : Store) (names : List String) : Except GenerationError (List CurriedFunction) :=
  names.mapM (prepareOne s)

def interfaces : Except GenerationError (List ContinuationDefinition) :=
  match continuationDefinitions with
  | .error e => .error (.signature none e)
  | .ok definitions => .ok definitions

/-! ## Chunks -/

/-- The operations for the functions and the footer, written by one emitter. -/
def sequentialTail (e : Emitter) : List CurriedFunction → List OutputOp
  | [] => [.write e.footer.take.2, .flush]
  | c :: rest =>
    let (e', block) := (e.function c).take
    .write block :: .flush :: sequentialTail e' rest

def sequentialOps (options : ModuleOptions) (definitions : List ContinuationDefinition)
    (functions : List CurriedFunction) : List OutputOp :=
  let (e, opening) := (({ options : Emitter }).header.helpers definitions).take
  .write opening :: sequentialTail e functions

def parallelOps (options : ModuleOptions) (definitions : List ContinuationDefinition)
    (blocks : List String) : List OutputOp :=
  let (e, opening) := (({ options : Emitter }).header.helpers definitions).take
  .write opening :: (blocks.map .write ++ [.write e.footer.take.2, .flush])

/-! ## Schedules -/

/-- Does the jobs whose numbers a schedule lists, in its order. -/
def runScheduled {α β : Type} (schedule : List Nat) (jobs : List α) (task : α → β) :
    List (Nat × β) :=
  schedule.filterMap fun i => (jobs[i]?).map fun job => (i, task job)

/-- The results in the order of the jobs. -/
def inJobOrder {β : Type} (count : Nat) (results : List (Nat × β)) : List β :=
  (List.range count).filterMap fun i => results.lookup i

def renderOne (s : Store) (options : ModuleOptions) (name : String) :
    Except GenerationError (String × CurriedFunction) := do
  let c ← prepareOne s name
  return (Emitter.functionBlock options c, c)

/-- Renders the blocks of functions in the order of a schedule; the first failure in the order
of the names counts. -/
def renderAll (s : Store) (options : ModuleOptions) (schedule : List Nat)
    (names : List String) : Except GenerationError (List (String × CurriedFunction)) :=
  (inJobOrder names.length (runScheduled schedule names (renderOne s options))).mapM id

end Generation

open Generation

def Destination.deliver {σ : Type} (d : Destination σ) (ops : List OutputOp) (report : Report)
    (s : σ) : σ × Except GenerationError Report :=
  match d.performAll ops s with
  | (s', none) => (s', .ok report)
  | (s', some reason) => (s', .error (.output reason))

/-- Writes the module for these names, one function after the other. -/
def generate {σ : Type} (d : Destination σ) (store : Store) (options : ModuleOptions)
    (names : List String) (s : σ) : σ × Except GenerationError Report :=
  match interfaces with
  | .error e => (s, .error e)
  | .ok definitions =>
    match prepare store names with
    | .error e => (s, .error e)
    | .ok functions =>
      d.deliver (sequentialOps options definitions functions) (Report.total functions) s

/-- Writes the module for these names; the blocks are rendered in the order of a schedule. -/
def generateParallel {σ : Type} (d : Destination σ) (store : Store) (options : ModuleOptions)
    (schedule : List Nat) (names : List String) (s : σ) : σ × Except GenerationError Report :=
  match interfaces with
  | .error e => (s, .error e)
  | .ok definitions =>
    match renderAll store options schedule names with
    | .error e => (s, .error e)
    | .ok rendered =>
      d.deliver (parallelOps options definitions (rendered.map Prod.fst))
        (Report.total (rendered.map Prod.snd)) s

def invalidText : String := "invalid utf-8 sequence"

/-- The module for these names as a text, read back from the bytes written. -/
def generateText (store : Store) (options : ModuleOptions) (names : List String) :
    Except GenerationError String :=
  match generate byteDestination store options names ByteArray.empty with
  | (_, .error e) => .error e
  | (bytes, .ok _) =>
    match String.fromUTF8? bytes with
    | some text => .ok text
    | none => .error (.output invalidText)

end CurriedTypings
