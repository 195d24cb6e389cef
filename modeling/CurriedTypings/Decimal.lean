/-!
# Doubles and their decimals

A finite double is a sign and a multiple of a power of two with at most 53
significant bits. Values are kept as exact integers: `roundRatio` takes the
quotient of two naturals to the nearest double, a half going to the even
neighbour, and products and quotients of doubles are the exact result rounded
once. What is too large for a double has no value at all.

A double is written as the decimal with the fewest digits among those that round to
it, and of several such the one nearest to the double; of two equally near the one
whose last digit is even. For each number of digits only the two decimals on either
side of the double have to be looked at: if any decimal of that length rounds to it,
one of these two does.
-/

namespace CurriedTypings.Decimal

/-! ## Finite doubles -/

/-- The magnitude `significand · 2 ^ exponent` of a double. Either the significand
has all 53 bits, or the exponent is the smallest one. -/
structure Magnitude where
  significand : Nat
  exponent : Int
  deriving DecidableEq, Repr, Inhabited

structure Binary64 where
  negative : Bool
  magnitude : Magnitude
  deriving DecidableEq, Repr, Inhabited

namespace Magnitude

def minExponent : Int := -1074

def maxExponent : Int := 971

def significandLimit : Nat := Nat.pow 2 53

def zero : Magnitude := ⟨0, minExponent⟩

def isZero (x : Magnitude) : Bool := x.significand = 0

def fraction (x : Magnitude) : Nat × Nat :=
  (x.significand * Nat.pow 2 x.exponent.toNat, Nat.pow 2 (-x.exponent).toNat)

/-- The integer nearest to `num / den`, the even one of two. -/
def roundDiv (num den : Nat) : Nat :=
  let q := num / den
  let twice := 2 * (num % den)
  if twice < den then q
  else if den < twice then q + 1
  else q + q % 2

def scaled (num den : Nat) (exponent : Int) : Nat × Nat :=
  (num * Nat.pow 2 (-exponent).toNat, den * Nat.pow 2 exponent.toNat)

/-- The exponent at which `num / den` has 53 bits before the point. -/
def fullExponent (num den : Nat) : Int :=
  let guess : Int := (Nat.log2 num : Int) - Nat.log2 den - 52
  let (n, d) := scaled num den guess
  if n / d < significandLimit / 2 then guess - 1 else guess

/-- The double nearest to `num / den`, if there is a finite one. -/
def roundRatio (num den : Nat) : Option Magnitude :=
  if num = 0 then
    some zero
  else
    let exponent := max (fullExponent num den) minExponent
    let (n, d) := scaled num den exponent
    let rounded := roundDiv n d
    let result : Magnitude :=
      if rounded = significandLimit then ⟨significandLimit / 2, exponent + 1⟩
      else ⟨rounded, exponent⟩
    if maxExponent < result.exponent then none else some result

def ofNat? (n : Nat) : Option Magnitude := roundRatio n 1

def mul? (x y : Magnitude) : Option Magnitude :=
  let (xn, xd) := x.fraction
  let (yn, yd) := y.fraction
  roundRatio (xn * yn) (xd * yd)

def div? (x y : Magnitude) : Option Magnitude :=
  let (xn, xd) := x.fraction
  let (yn, yd) := y.fraction
  roundRatio (xn * yd) (xd * yn)

end Magnitude

/-! ## Shortest decimals -/

/-- The decimal `0.d₁d₂d₃… · 10 ^ (exponent + 1)`: its digits, and the exponent of the first. -/
structure Digits where
  digits : List Char
  exponent : Int
  deriving DecidableEq, Repr, Inhabited

namespace Shortest

def powerFraction (base : Nat) (exponent : Int) : Nat × Nat :=
  (Nat.pow base exponent.toNat, Nat.pow base (-exponent).toNat)

/-- Whether `a · 10 ^ e` compares with `b · 2 ^ q` as `rel` says. -/
def compareScaled (rel : Nat → Nat → Bool) (a : Nat) (e : Int) (b : Nat) (q : Int) : Bool :=
  let (tenNum, tenDen) := powerFraction 10 e
  let (twoNum, twoDen) := powerFraction 2 q
  rel (a * tenNum * twoDen) (b * twoNum * tenDen)

/-- Whether `a · 10 ^ e` rounds to the double. The ends of the interval of numbers
that round to it belong to the interval exactly if the significand is even. -/
def roundsTo (x : Magnitude) (a : Nat) (e : Int) : Bool :=
  let below := if x.significand = Nat.pow 2 52 && Magnitude.minExponent < x.exponent then 1 else 2
  let rel : Nat → Nat → Bool :=
    if x.significand % 2 = 0 then fun m n => m ≤ n else fun m n => m < n
  compareScaled (fun m n => rel n m) a e (4 * x.significand - below) (x.exponent - 2) &&
    compareScaled rel a e (4 * x.significand + 2) (x.exponent - 2)

def leadingExponent (x : Magnitude) : Int :=
  let (num, den) := x.fraction
  if den ≤ num then
    ((Nat.toDigits 10 (num / den)).length : Int) - 1
  else
    let places := (Nat.toDigits 10 (den / num)).length - 1
    if den ≤ num * Nat.pow 10 places then -(places : Int) else -(places : Int) - 1

/-- The better of two neighbours on the grid of step `10 ^ e` on either side of a double. -/
def nearer (x : Magnitude) (low : Nat) (e : Int) : Nat :=
  let middle := 2 * low + 1
  if compareScaled (fun m n => n < m) middle e (2 * x.significand) x.exponent then low
  else if compareScaled (fun m n => m < n) middle e (2 * x.significand) x.exponent then low + 1
  else low + low % 2

/-- The decimal with step `10 ^ e` chosen for a double, if one of that step rounds to it. -/
def onGrid? (x : Magnitude) (e : Int) : Option Nat :=
  let (num, den) := x.fraction
  let (tenNum, tenDen) := powerFraction 10 e
  let low := num * tenDen / (den * tenNum)
  match roundsTo x low e, roundsTo x (low + 1) e with
  | true, true => some (nearer x low e)
  | true, false => some low
  | false, true => some (low + 1)
  | false, false => none

def dropTrailingZeros (digits : List Char) : List Char :=
  (digits.reverse.dropWhile (· = '0')).reverse

/-- The first of the lengths `length`, `length + 1`, … for which there is a decimal. -/
def search (x : Magnitude) (lead : Int) : (attempts length : Nat) → Digits
  | 0, _ => ⟨['0'], 0⟩
  | attempts + 1, length =>
    let step := lead - length + 1
    match onGrid? x step with
    | some a =>
      let digits := Nat.toDigits 10 a
      ⟨dropTrailingZeros digits, step + digits.length - 1⟩
    | none => search x lead attempts (length + 1)

end Shortest

def shortest (x : Magnitude) : Digits :=
  Shortest.search x (Shortest.leadingExponent x) 17 1

/-- How a decimal is laid out: first digits with exponents in this range are placed by
zeros, any other decimal is written with an exponent. -/
structure Layout where
  lowest : Int
  highest : Int
  deriving DecidableEq, Repr

namespace Layout

/-- A decimal without exponent, with at least one digit on either side of the point. -/
def positional (d : Digits) : String :=
  if d.exponent < 0 then
    "0." ++ String.ofList (List.replicate ((-d.exponent).toNat - 1) '0' ++ d.digits)
  else
    let whole := d.exponent.toNat + 1
    let fraction := d.digits.drop whole
    String.ofList (d.digits.take whole ++ List.replicate (whole - d.digits.length) '0') ++ "." ++
      (if fraction.isEmpty then "0" else String.ofList fraction)

def scientific (d : Digits) : String :=
  let fraction := d.digits.drop 1
  String.ofList (d.digits.take 1) ++
    (if fraction.isEmpty then "" else "." ++ String.ofList fraction) ++
    (if d.exponent < 0 then "e-" else "e+") ++ toString d.exponent.natAbs

def render (layout : Layout) (x : Binary64) : String :=
  let sign := if x.negative then "-" else ""
  if x.magnitude.isZero then
    sign ++ "0.0"
  else
    let d := shortest x.magnitude
    if layout.lowest ≤ d.exponent && d.exponent ≤ layout.highest then sign ++ positional d
    else sign ++ scientific d

end Layout

end CurriedTypings.Decimal
