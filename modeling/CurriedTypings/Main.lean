import CurriedTypings.CommandLine.Arguments
import CurriedTypings.CommandLine.Run

/-!
# The program

Connects runs with the real files and streams. Everything that is decided is decided
in `CommandLine.run`.
-/

namespace CurriedTypings.Console

open CommandLine

def systemError : IO.Error → Nat × String
  | .alreadyExists _ code text | .invalidArgument _ code text | .permissionDenied _ code text
  | .resourceExhausted _ code text | .inappropriateType _ code text | .noSuchThing _ code text =>
    (code.toNat, text)
  | .interrupted _ code text | .noFileOrDirectory _ code text => (code.toNat, text)
  | .otherError code text | .resourceBusy code text | .resourceVanished code text
  | .unsupportedOperation code text | .hardwareFault code text
  | .unsatisfiedConstraints code text | .illegalOperation code text | .protocolError code text
  | .timeExpired code text => (code.toNat, text)
  | .unexpectedEof => (0, "unexpected end of file")
  | .userError text => (0, text)

def fileError (e : IO.Error) : FileError :=
  match systemError e with
  | (2, _) => .notFound
  | (17, _) => .alreadyExists
  | (20, _) => .notADirectory
  | (21, _) => .isADirectory
  | (code, text) => .other (text ++ " (os error " ++ toString code ++ ")")

/-- Does something with files; what fails is a value. -/
def caught {α : Type} (action : IO α) : IO (Except FileError α) := do
  try
    return .ok (← action)
  catch e =>
    return .error (fileError e)

/-- The operations on real files and on the standard output. A directory can be opened, but it
cannot be read. -/
def system : System IO where
  readText path := do
    match ← caught (do (← IO.FS.Handle.mk path .read).readBinToEnd) with
    | .error e => return .error e
    | .ok content =>
      match String.fromUTF8? content with
      | some text => return .ok text
      | none => return .error .notText
  writeText path text := caught (do
    let handle ← IO.FS.Handle.mk path .write
    handle.putStr text
    handle.flush)
  createDirectory path := caught (IO.FS.createDir path)
  isDirectory path := do
    match ← caught (do (← IO.FS.Handle.mk path .read).read 1) with
    | .error .isADirectory => return true
    | _ => return false
  print op := caught (do
    let stdout ← IO.getStdout
    match op with
    | .write text => stdout.putStr text
    | .flush => stdout.flush)

/-- Answers arguments that do not lead to a run, and gives the exit status. -/
def decline (e : UsageError) : IO UInt32 := do
  if e.isRequest then
    IO.println e.message
    return 0
  else
    IO.eprintln ("error: " ++ e.message ++ "\n\n" ++ usageLine)
    return 2

def start (arguments : List String) : IO UInt32 := do
  match Arguments.parse arguments with
  | .error e => decline e
  | .ok a =>
    let stderr ← IO.getStderr
    let outcome ← run system a (← stderr.isTty)
    stderr.putStr outcome.stderr
    return outcome.exit.toUInt32

end CurriedTypings.Console

def main (arguments : List String) : IO UInt32 := CurriedTypings.Console.start arguments
