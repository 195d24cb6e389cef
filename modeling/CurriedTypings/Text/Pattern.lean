/-!
# Patterns

A pattern is a row of pieces, and a text fits it if it can be divided into parts, one for each
piece: a fixed text, a fixed text that may be missing, a run of characters with some excluded,
or a run of characters on one line.

A text can often be divided in several ways. The pieces are tried from left to right. Each
takes as much as it can, and gives some of it back only if the pieces behind it cannot divide
what is left; so it is always clear which of the divisions is meant.
-/

namespace CurriedTypings.Text

inductive Piece where
  | literal (text : List Char)
  | optional (text : List Char)
  /-- Any characters but the excluded ones. -/
  | group (excluded : List Char) (mayBeEmpty : Bool)
  /-- Any characters but line breaks. -/
  | line
  deriving DecidableEq, Repr

abbrev Pattern := List Piece

/-- The ways to cut a text behind characters that all satisfy `p`, the longest part first. -/
def runs (p : Char → Bool) : List Char → List (List Char × List Char)
  | [] => [([], [])]
  | c :: cs =>
    if p c then (runs p cs).map (Prod.map (c :: ·) id) ++ [([], c :: cs)]
    else [([], c :: cs)]

def fixed (text cs : List Char) : List (List Char × List Char) :=
  if text.isPrefixOf cs then [(text, cs.drop text.length)] else []

namespace Piece

/-- The ways in which a piece can take a part off a text, in the order in which they are tried.
Each is a part and what is left. -/
def ways : Piece → List Char → List (List Char × List Char)
  | literal text, cs => fixed text cs
  | optional text, cs => fixed text cs ++ [([], cs)]
  | group excluded true, cs => runs (· ∉ excluded) cs
  | group excluded false, cs => (runs (· ∉ excluded) cs).filter fun way => way.1 ≠ []
  | line, cs => runs (· ≠ '\n') cs

end Piece

namespace Pattern

def parts? : Pattern → List Char → Option (List (List Char))
  | [], [] => some []
  | [], _ :: _ => none
  | piece :: pieces, cs =>
    (piece.ways cs).findSome? fun way => (parts? pieces way.2).map (way.1 :: ·)

def fits (pattern : Pattern) (cs : List Char) : Bool := (pattern.parts? cs).isSome

end Pattern

/-! ## Patterns in writing -/

/-- A character with a backslash in front of it if it would mean something else without. -/
def escaped (special : List Char) (c : Char) : List Char :=
  if c ∈ special then ['\\', c] else [c]

def specialChars : List Char :=
  ['\\', '.', '+', '*', '?', '(', ')', '|', '[', ']', '\x7b', '\x7d', '^', '$']

/-- What has a meaning of its own in a set of characters. -/
def specialInSets : List Char := ['\\', ']', '^', '-']

def Piece.written : Piece → List Char
  | literal text => text.flatMap (escaped specialChars)
  | optional [c] => escaped specialChars c ++ ['?']
  | optional text => '(' :: text.flatMap (escaped specialChars) ++ [')', '?']
  | group excluded mayBeEmpty =>
    ['(', '[', '^'] ++ excluded.flatMap (escaped specialInSets)
      ++ [']', if mayBeEmpty then '*' else '+', ')']
  | line => ['.', '*']

/-- A pattern as messages show it. -/
def Pattern.written (pattern : Pattern) : String :=
  String.ofList ('^' :: pattern.flatMap Piece.written ++ ['$'])

end CurriedTypings.Text
