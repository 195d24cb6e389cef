import CurriedTypings.Json.Token

/-!
# Numbers in documents

An integer that fits 64 bits is read exactly. Everything else is a double: numbers
with a fraction or an exponent, integers too large for 64 bits, and `-0`. Its
digits are gathered into a 64-bit significand as long as they fit, further ones
only count for the exponent, and the double is the significand multiplied or
divided by a power of ten. In a value that is skipped, only the form of a number
is checked.
-/

namespace CurriedTypings.Json

open Decimal

inductive Number where
  | integer (value : Int)
  | floating (value : Binary64)
  deriving DecidableEq, Repr, Inhabited

def Number.found : Number → Found
  | integer value => .integer value
  | floating value => .floating value

/-- The digits of a number's parts; the exponent has its sign, and the parts after the
integer part are there only if they are written. -/
structure Numeral where
  integer : List Char
  fraction : Option (List Char) := none
  exponent : Option (Bool × List Char) := none
  deriving DecidableEq, Repr, Inhabited

def digitValue (c : Char) : Nat := c.toNat - '0'.toNat

def maxSignificand : Nat := Nat.pow 2 64 - 1

def maxExponent : Nat := Nat.pow 2 31 - 1

/-- Appends digits to a number as long as it does not exceed `limit`; the second part holds
those that were left over. -/
def gather (limit : Nat) : Nat → List Char → Nat × List Char
  | n, [] => (n, [])
  | n, c :: cs =>
    let next := n * 10 + digitValue c
    if limit < next then (n, c :: cs) else gather limit next cs

/-! ## The value of a numeral -/

def powerOfTen (e : Nat) : Magnitude := (Magnitude.ofNat? (Nat.pow 10 e)).getD .zero

def largestPower : Nat := 308

/-- A double divided by the largest power of ten, so many times; nothing more happens to
it once it is zero. -/
def divideOut (x : Magnitude) : Nat → Option Magnitude
  | 0 => some x
  | times + 1 =>
    if x.isZero then some x
    else (x.div? (powerOfTen largestPower)).bind (divideOut · times)

/-- A double times a power of ten, if that is finite. Powers that are no doubles are divided
out in steps of the largest one that is. -/
def scaleByTen (x : Magnitude) (e : Int) : Option Magnitude :=
  if x.isZero then
    some x
  else if 0 ≤ e then
    if e ≤ largestPower then x.mul? (powerOfTen e.toNat) else none
  else
    let places := e.natAbs
    let steps := (places - 1) / largestPower
    (divideOut x steps).bind fun y => y.div? (powerOfTen (places - steps * largestPower))

def toDouble (negative : Bool) (significand : Nat) (e : Int) : Except Error Number :=
  match (Magnitude.ofNat? significand).bind (scaleByTen · e) with
  | some x => .ok (.floating ⟨negative, x⟩)
  | none => .error .numberOutOfRange

/-- The double of a significand, the power of ten it has so far, and a written exponent. -/
def applyExponent (negative : Bool) (significand : Nat) (e : Int) :
    Option (Bool × List Char) → Except Error Number
  | none => toDouble negative significand e
  | some (down, digits) =>
    match gather maxExponent 0 digits with
    | (n, []) => toDouble negative significand (if down then e - n else e + n)
    | (_, _ :: _) =>
      if significand ≠ 0 && !down then .error .numberOutOfRange
      else .ok (.floating ⟨negative, .zero⟩)

def Numeral.value (negative : Bool) (n : Numeral) : Except Error Number :=
  let (significand, excess) := gather maxSignificand 0 n.integer
  match n.fraction, n.exponent, excess with
  | none, none, [] =>
    if !negative then .ok (.integer significand)
    else if 0 < significand && significand ≤ Nat.pow 2 63 then .ok (.integer (-significand))
    else toDouble true significand 0
  | none, exponent, excess => applyExponent negative significand excess.length exponent
  | some fraction, exponent, excess =>
    let (extended, dropped) := gather maxSignificand significand fraction
    applyExponent negative extended
      ((excess.length : Int) - (fraction.length - dropped.length)) exponent

/-! ## The form of a numeral -/

def takeDigits : (cs : List Char) → List Char × Remaining cs
  | [] => ([], .all [])
  | c :: cs =>
    if c.isDigit then
      let (digits, r) := takeDigits cs
      (c :: digits, ⟨r.val, Nat.le_trans r.property (Nat.le_succ _)⟩)
    else
      ([], .all (c :: cs))

/-- At least one digit; `atEnd` is what is wrong if the document ends instead. -/
def readDigits (atEnd : Error) : Reader (List Char)
  | [] => .error atEnd
  | c :: cs =>
    if c.isDigit then
      let (digits, r) := takeDigits cs
      .ok (c :: digits, (Rest.tail c cs).before r)
    else
      .error .invalidNumber

/-- The integer part: no digit may follow a leading zero. -/
def readInteger (atEnd : Error) : Reader (List Char)
  | '0' :: cs =>
    match cs with
    | [] => .ok (['0'], Rest.tail '0' [])
    | c :: rest =>
      if c.isDigit then .error .invalidNumber else .ok (['0'], Rest.tail '0' (c :: rest))
  | cs => readDigits atEnd cs

def readFraction (atEnd : Error) : (cs : List Char) →
    Except Error (Option (List Char) × Remaining cs)
  | '.' :: cs => do
    let (digits, rest) ← readDigits atEnd cs
    .ok (some digits, ((Rest.tail '.' cs).within rest).remaining)
  | cs => .ok (none, .all cs)

def takeSign : (cs : List Char) → Bool × Remaining cs
  | '-' :: cs => (true, .tail '-' cs)
  | '+' :: cs => (false, .tail '+' cs)
  | cs => (false, .all cs)

/-- The digits of an exponent with its sign, read from behind the letter. -/
def readSigned (atEnd : Error) : Reader (Bool × List Char) := fun cs => do
  let (down, r) := takeSign cs
  let (digits, rest) ← readDigits atEnd r.val
  .ok ((down, digits), Rest.after r rest)

def readExponent (atEnd : Error) : (cs : List Char) →
    Except Error (Option (Bool × List Char) × Remaining cs)
  | c :: cs =>
    if c = 'e' || c = 'E' then do
      let (exponent, rest) ← readSigned atEnd cs
      .ok (some exponent, ((Rest.tail c cs).within rest).remaining)
    else
      .ok (none, .all (c :: cs))
  | [] => .ok (none, .all [])

def readNumeral (atEnd : Error) : Reader Numeral := fun cs => do
  let (integer, rest) ← readInteger atEnd cs
  let (fraction, r₁) ← readFraction atEnd rest.val
  let (exponent, r₂) ← readExponent atEnd r₁.val
  .ok (⟨integer, fraction, exponent⟩,
    rest.before ⟨r₂.val, Nat.le_trans r₂.property r₁.property⟩)

/-- A number without its minus sign, which was there if `negative`. -/
def readNumber (negative : Bool) : Reader Number := fun cs => do
  let (numeral, rest) ← readNumeral .eofInValue cs
  let value ← numeral.value negative
  .ok (value, rest)

/-- A number whose value does not matter, without its minus sign. -/
def skipNumber (cs : List Char) : Except Error (Rest cs) := do
  let (_, rest) ← readNumeral .invalidNumber cs
  .ok rest

end CurriedTypings.Json
