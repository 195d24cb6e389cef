import CurriedTypings.Decimal
import CurriedTypings.Text.Quoted

/-!
# Tokens

A document is a list of characters, and reading it takes characters off its front.
Whatever reads something returns a `Rest`: what is left, together with the fact
that it is shorter than what was there. Every loop over a document ends because of
this fact.

A document is read in one pass, so there is exactly one error: the first defect in
document order, be it of syntax or of type. A message says what it is and leaves out
the line and the column.
-/

namespace CurriedTypings.Json

/-! ## Why a document cannot be read -/

def floatLayout : Decimal.Layout := ⟨-5, 15⟩

/-- What a value turned out to be where something else was expected. -/
inductive Found where
  | null
  | boolean (value : Bool)
  | integer (value : Int)
  | floating (value : Decimal.Binary64)
  | string (value : String)
  | sequence
  | map
  deriving DecidableEq, Repr, Inhabited

def Found.describe : Found → String
  | null => "null"
  | boolean value => "boolean `" ++ toString value ++ "`"
  | integer value => "integer `" ++ toString value ++ "`"
  | floating value => "floating point `" ++ floatLayout.render value ++ "`"
  | string value => "string " ++ Text.quoted value
  | sequence => "sequence"
  | map => "map"

inductive Error where
  | eofInList | eofInObject | eofInString | eofInValue
  | expectedColon | expectedCommaOrListEnd | expectedCommaOrObjectEnd
  | expectedIdent | expectedValue
  | invalidEscape | invalidNumber | numberOutOfRange
  | controlCharacter | keyMustBeString
  | loneSurrogate | unpairedSurrogate
  | trailingComma | trailingCharacters
  | invalidType (found : Found) (expected : String)
  | invalidValue (found : Found) (expected : String)
  | invalidLength (length : Nat) (expected : String)
  | missingField (name : String)
  | duplicateField (name : String)
  | unknownVariant (name : String) (expected : List String)
  deriving DecidableEq, Repr, Inhabited

def alternatives (names : List String) : String :=
  " or ".intercalate (names.map fun name => "`" ++ name ++ "`")

def Error.message : Error → String
  | eofInList => "EOF while parsing a list"
  | eofInObject => "EOF while parsing an object"
  | eofInString => "EOF while parsing a string"
  | eofInValue => "EOF while parsing a value"
  | expectedColon => "expected `:`"
  | expectedCommaOrListEnd => "expected `,` or `]`"
  | expectedCommaOrObjectEnd => "expected `,` or `\x7d`"
  | expectedIdent => "expected ident"
  | expectedValue => "expected value"
  | invalidEscape => "invalid escape"
  | invalidNumber => "invalid number"
  | numberOutOfRange => "number out of range"
  | controlCharacter =>
    "control character (\\u0000-\\u001F) found while parsing a string"
  | keyMustBeString => "key must be a string"
  | loneSurrogate => "lone leading surrogate in hex escape"
  | unpairedSurrogate => "unexpected end of hex escape"
  | trailingComma => "trailing comma"
  | trailingCharacters => "trailing characters"
  | invalidType found expected =>
    "invalid type: " ++ found.describe ++ ", expected " ++ expected
  | invalidValue found expected =>
    "invalid value: " ++ found.describe ++ ", expected " ++ expected
  | invalidLength length expected =>
    "invalid length " ++ toString length ++ ", expected " ++ expected
  | missingField name => "missing field `" ++ name ++ "`"
  | duplicateField name => "duplicate field `" ++ name ++ "`"
  | unknownVariant name expected =>
    "unknown variant `" ++ name ++ "`, expected " ++ alternatives expected

/-! ## What is left of a document -/

/-- What is left of `cs` after something has been read. -/
abbrev Rest (cs : List Char) := { rest : List Char // rest.length < cs.length }

/-- What is left of `cs` if nothing or something has been read. -/
abbrev Remaining (cs : List Char) := { rest : List Char // rest.length ≤ cs.length }

namespace Remaining

def all (cs : List Char) : Remaining cs := ⟨cs, Nat.le_refl _⟩

def tail (c : Char) (cs : List Char) : Remaining (c :: cs) := ⟨cs, Nat.le_succ _⟩

end Remaining

namespace Rest

def tail (c : Char) (cs : List Char) : Rest (c :: cs) := ⟨cs, Nat.lt_succ_self _⟩

def remaining {cs : List Char} (r : Rest cs) : Remaining cs :=
  ⟨r.val, Nat.le_of_lt r.property⟩

/-- What is left of a rest is left of the whole. -/
def within {cs : List Char} (r : Rest cs) (inner : Rest r.val) : Rest cs :=
  ⟨inner.val, Nat.lt_trans inner.property r.property⟩

def before {cs : List Char} (r : Rest cs) (inner : Remaining r.val) : Rest cs :=
  ⟨inner.val, Nat.lt_of_le_of_lt inner.property r.property⟩

def after {cs : List Char} (r : Remaining cs) (inner : Rest r.val) : Rest cs :=
  ⟨inner.val, Nat.lt_of_lt_of_le inner.property r.property⟩

/-- Puts the first character back in front of what follows it. -/
def withFirst {cs : List Char} (r : Rest cs) (c : Char) : Remaining cs :=
  ⟨c :: r.val, r.property⟩

end Rest

abbrev Reader (α : Type) := (cs : List Char) → Except Error (α × Rest cs)

def isSpace (c : Char) : Bool := c = ' ' || c = '\n' || c = '\t' || c = '\r'

/-- The next character that is no space, and what follows it. -/
def nextToken : (cs : List Char) → Option (Char × Rest cs)
  | [] => none
  | c :: cs =>
    if isSpace c then
      (nextToken cs).map fun (t, r) => (t, (Rest.tail c cs).within r)
    else
      some (c, Rest.tail c cs)

def readWord : (word cs : List Char) → Except Error (Remaining cs)
  | [], cs => .ok (.all cs)
  | _ :: _, [] => .error .eofInValue
  | w :: word, c :: cs =>
    if w = c then do
      let r ← readWord word cs
      return ⟨r.val, Nat.le_trans r.property (Nat.le_succ _)⟩
    else
      .error .expectedIdent

def readColon (cs : List Char) : Except Error (Rest cs) :=
  match nextToken cs with
  | none => .error .eofInObject
  | some (':', rest) => .ok rest
  | some _ => .error .expectedColon

def readEnd (cs : List Char) : Except Error Unit :=
  match nextToken cs with
  | none => .ok ()
  | some _ => .error .trailingCharacters

end CurriedTypings.Json
