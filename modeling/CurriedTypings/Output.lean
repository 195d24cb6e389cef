/-!
# Output

Output is a sequence of writes and flushes. A destination performs them one at a
time; it may refuse one, and then no further operation reaches it. A write is all
or nothing.
-/

namespace CurriedTypings

inductive OutputOp where
  | write (text : String)
  | flush
  deriving DecidableEq, Repr, Inhabited

/-- Where output goes. Every operation yields the state after it, and the reason if it was
refused. -/
structure Destination (σ : Type) where
  write : String → σ → σ × Option String
  flush : σ → σ × Option String

namespace Destination

variable {σ : Type} (d : Destination σ)

def perform : OutputOp → σ → σ × Option String
  | .write text, s => d.write text s
  | .flush, s => d.flush s

/-- Performs operations up to the first that is refused. -/
def performAll : List OutputOp → σ → σ × Option String
  | [], s => (s, none)
  | op :: ops, s =>
    match d.perform op s with
    | (s', none) => performAll ops s'
    | (s', some reason) => (s', some reason)

end Destination

def OutputOp.writtenText : List OutputOp → String
  | [] => ""
  | write text :: ops => text ++ writtenText ops
  | flush :: ops => writtenText ops

def textDestination : Destination String where
  write text s := (s ++ text, none)
  flush s := (s, none)

def byteDestination : Destination ByteArray where
  write text s := (s ++ text.toUTF8, none)
  flush s := (s, none)

/-- A destination that keeps what it is asked for and refuses nothing. -/
def opDestination : Destination (List OutputOp) where
  write text ops := (ops ++ [.write text], none)
  flush ops := (ops ++ [.flush], none)

/-! ## Recorded output -/

inductive OutputEvent where
  | written (bytes : Nat)
  | writeFailed
  | flushed
  | flushFailed
  deriving DecidableEq, Repr, Inhabited

structure Recording where
  output : String := ""
  events : List OutputEvent := []
  deriving DecidableEq, Repr, Inhabited

def Recording.flushes (r : Recording) : Nat :=
  r.events.countP fun e => e = .flushed || e = .flushFailed

def Recording.record (r : Recording) (e : OutputEvent) : Recording :=
  { r with events := r.events ++ [e] }

/-- A destination that records what happens. It has room for `capacity` bytes, and refuses the
flush of this number, if these are given. -/
def recordingDestination (capacity failingFlush : Option Nat) : Destination Recording where
  write text r :=
    let total := r.output.utf8ByteSize + text.utf8ByteSize
    if capacity.any fun limit => limit < total then
      (r.record .writeFailed, some "writer full")
    else
      ({ r.record (.written text.utf8ByteSize) with output := r.output ++ text }, none)
  flush r :=
    if failingFlush = some (r.flushes + 1) then
      (r.record .flushFailed, some "flush refused")
    else
      (r.record .flushed, none)

end CurriedTypings
