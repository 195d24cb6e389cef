import CurriedTypings.Generation

/-!
# Arguments

The command line knows options that take one value, flags, and nothing else. A
value is attached (`--docs=x`, `-ox`, `-o=x`) or the next argument, unless that
starts with a dash; a dash alone is a value. Everything behind `--` counts as a
plain argument, and there are none.

An option whose value is the next argument is entered only when the next option
comes or the arguments end. So what is wrong with it (no value, given before, or an
empty path) is found later than an argument that is not known at all. That two
options exclude each other is found last.
-/

namespace CurriedTypings

namespace CommandLine

inductive ValueOption where
  | function | metadata | docs | outFile | moduleName | docPrefix
  deriving DecidableEq, Repr, Inhabited

inductive Flag where
  | all | iteratees | parallel | diagnostics | noColor
  deriving DecidableEq, Repr, Inhabited

inductive Switch where
  | value (option : ValueOption)
  | flag (flag : Flag)
  | version
  | help
  deriving DecidableEq, Repr, Inhabited

inductive UsageError where
  | unknownArgument
  | invalidValue
  | tooManyValues
  | argumentConflict
  | displayVersion
  | displayHelp
  deriving DecidableEq, Repr, Inhabited

structure Arguments where
  functions : List String := []
  all : Bool := false
  iteratees : Bool := false
  metadata : Option String := none
  docs : Option String := none
  outFile : Option String := none
  moduleName : String := "lodash/fp"
  docPrefix : Option String := none
  parallel : Bool := false
  diagnostics : Bool := false
  noColor : Bool := false
  deriving DecidableEq, Repr, Inhabited

def Switch.ofLong? (name : String) : Option Switch :=
  List.lookup name
    [("function", value .function), ("all", flag .all), ("iteratees", flag .iteratees),
      ("metadata", value .metadata), ("docs", value .docs), ("out-file", value .outFile),
      ("outFile", value .outFile), ("module-name", value .moduleName),
      ("doc-prefix", value .docPrefix), ("parallel", flag .parallel),
      ("diagnostics", flag .diagnostics), ("no-color", flag .noColor), ("version", version),
      ("help", help)]

def Switch.ofShort? : Char → Option Switch
  | 'f' => some (value .function)
  | 'o' => some (value .outFile)
  | 'V' => some version
  | 'h' => some help
  | _ => none

/-- Whether the value of an option is a path, which must not be empty. -/
def ValueOption.isPath : ValueOption → Bool
  | metadata | docs | outFile => true
  | function | moduleName | docPrefix => false

/-! ## Reading arguments one by one -/

structure Progress where
  functions : List String := []
  values : List (ValueOption × String) := []
  flags : List Flag := []
  /-- An option that has not been entered yet, with its value if that has come. -/
  pending : Option (ValueOption × Option String) := none
  onlyPlain : Bool := false
  deriving DecidableEq, Repr, Inhabited

namespace Progress

def enter (p : Progress) (option : ValueOption) (value : String) : Except UsageError Progress :=
  if option = .function then
    .ok { p with functions := p.functions ++ [value] }
  else if (p.values.lookup option).isSome then
    .error .argumentConflict
  else if option.isPath && value.isEmpty then
    .error .invalidValue
  else
    .ok { p with values := p.values ++ [(option, value)] }

def settle (p : Progress) : Except UsageError Progress :=
  match p.pending with
  | none => .ok p
  | some (_, none) => .error .invalidValue
  | some (option, some value) => { p with pending := none }.enter option value

def attach (p : Progress) (option : ValueOption) (value : String) :
    Except UsageError Progress := do
  (← p.settle).enter option value

/-- Starts an option whose value is the next argument. -/
def await (p : Progress) (option : ValueOption) : Except UsageError Progress := do
  return { ← p.settle with pending := some (option, none) }

def raise (p : Progress) (flag : Flag) : Except UsageError Progress := do
  let p ← p.settle
  if flag ∈ p.flags then .error .argumentConflict
  else .ok { p with flags := p.flags ++ [flag] }

def stop (p : Progress) (reason : UsageError) : Except UsageError Progress := do
  let _ ← p.settle
  .error reason

def long (p : Progress) (name : String) (attached : Option String) :
    Except UsageError Progress :=
  match Switch.ofLong? name, attached with
  | none, _ => .error .unknownArgument
  | some (.value option), some value => p.attach option value
  | some (.value option), none => p.await option
  | some _, some _ => .error .tooManyValues
  | some (.flag flag), none => p.raise flag
  | some .version, none => p.stop .displayVersion
  | some .help, none => p.stop .displayHelp

/-- A one-letter switch with what is written behind it. -/
def short (p : Progress) (letter : Char) (rest : List Char) : Except UsageError Progress :=
  match Switch.ofShort? letter with
  | none => .error .unknownArgument
  | some (.value option) =>
    match rest with
    | [] => p.await option
    | '=' :: value => p.attach option (String.ofList value)
    | value => p.attach option (String.ofList value)
  | some (.flag flag) => p.raise flag
  | some .version => p.stop .displayVersion
  | some .help => p.stop .displayHelp

/-- An argument that is no switch: the value of the option before it, if that has none. -/
def plain (p : Progress) (argument : String) : Except UsageError Progress :=
  match p.pending with
  | some (option, none) => .ok { p with pending := some (option, some argument) }
  | _ => .error .unknownArgument

def splitLong (cs : List Char) : String × Option String :=
  let name := String.ofList (cs.takeWhile (· ≠ '='))
  match cs.dropWhile (· ≠ '=') with
  | [] => (name, none)
  | _ :: value => (name, some (String.ofList value))

def read (p : Progress) (argument : String) : Except UsageError Progress :=
  if p.onlyPlain then
    .error .unknownArgument
  else
    match argument.toList with
    | ['-', '-'] => .ok { p with onlyPlain := true }
    | '-' :: '-' :: cs =>
      let (name, attached) := splitLong cs
      p.long name attached
    | '-' :: letter :: rest => p.short letter rest
    | _ => p.plain argument

def hasConflict (p : Progress) : Bool :=
  let functions := !p.functions.isEmpty
  let all := p.flags.contains .all
  let iteratees := p.flags.contains .iteratees
  let docs := (p.values.lookup .docs).isSome
  let metadata := (p.values.lookup .metadata).isSome
  let parallel := p.flags.contains .parallel
  all && functions || iteratees && (functions || all) ||
    docs && (functions || all || iteratees || metadata || parallel)

def finish (p : Progress) : Except UsageError Arguments := do
  let p ← p.settle
  if p.hasConflict then
    .error .argumentConflict
  else
    .ok
      { functions := p.functions
        all := p.flags.contains .all
        iteratees := p.flags.contains .iteratees
        metadata := p.values.lookup .metadata
        docs := p.values.lookup .docs
        outFile := p.values.lookup .outFile
        moduleName := (p.values.lookup .moduleName).getD "lodash/fp"
        docPrefix := p.values.lookup .docPrefix
        parallel := p.flags.contains .parallel
        diagnostics := p.flags.contains .diagnostics
        noColor := p.flags.contains .noColor }

end Progress

namespace Arguments

def parse (arguments : List String) : Except UsageError Arguments := do
  let p ← arguments.foldlM Progress.read {}
  p.finish

def selection (a : Arguments) : Selection :=
  if a.all then .curriable
  else if a.iteratees then .iteratee
  else if a.functions.isEmpty then .representative
  else .names a.functions

/-- Where the declarations are attached; markers use the module's name unless they are given
a text of their own. -/
def options (a : Arguments) : ModuleOptions where
  moduleName := a.moduleName
  docPrefix := a.docPrefix.getD (a.moduleName ++ "/")

end Arguments

end CommandLine

/-! ## Usage -/

namespace CommandLine

def versionText : String := "fpgen 0.1.0"

def usageLine : String := "Usage: fpgen [OPTIONS]"

def helpText : String :=
  "\n".intercalate
    ["Generate curried TypeScript declarations for lodash/fp-style libraries", "",
      usageLine, "",
      "Options:",
      "  -f, --function <NAME>       Declare this function (may be repeated)",
      "      --all                   Declare every function that can be curried",
      "      --iteratees             Declare every function that takes a callback",
      "      --metadata <FILE>       Read the metadata from a JSON file",
      "      --docs <FILE>           Declare documented functions instead",
      "  -o, --out-file <FILE>       Write to a file",
      "      --module-name <NAME>    Name of the declared module [default: lodash/fp]",
      "      --doc-prefix <PREFIX>   What precedes the names in marker comments",
      "      --parallel              Render the functions independently of each other",
      "      --diagnostics           Print totals when done",
      "      --no-color              Print without colors",
      "  -h, --help                  Print help",
      "  -V, --version               Print version"]

def UsageError.message : UsageError → String
  | unknownArgument => "unexpected argument"
  | invalidValue => "a value is required"
  | tooManyValues => "a flag does not take a value"
  | argumentConflict => "options cannot be used together"
  | displayVersion => versionText
  | displayHelp => helpText

/-- Whether the text of an error is what was asked for. -/
def UsageError.isRequest : UsageError → Bool
  | displayVersion | displayHelp => true
  | _ => false

end CommandLine

/-! ## Log formats

The format of log output is chosen by name; a name that is not known chooses plain
text. Letter case does not matter. -/

inductive LogFormat where
  | text
  | tree
  | json
  deriving DecidableEq, Repr, Inhabited

namespace LogFormat

/-- The format of this name. Only ASCII letters have the letters of the known names as their
lower case, so no other letters need to be considered. -/
def ofName (name : String) : LogFormat :=
  let lower := name.toList.map Char.toLower
  if lower = ['t', 'r', 'e', 'e'] then tree
  else if lower = ['j', 's', 'o', 'n'] then json
  else text

end LogFormat

end CurriedTypings
