import CurriedTypings.Json.Token

/-!
# Strings in documents

A string is read character by character up to its closing quote. A backslash
starts an escape; a four-digit escape names a UTF-16 code unit, and characters
beyond the first plane take two of them, a high and a low surrogate. In a value
that is skipped, surrogates need not form pairs.
-/

namespace CurriedTypings.Json

def hexDigit? (c : Char) : Option Nat :=
  if '0' ≤ c && c ≤ '9' then some (c.toNat - '0'.toNat)
  else if 'a' ≤ c && c ≤ 'f' then some (c.toNat - 'a'.toNat + 10)
  else if 'A' ≤ c && c ≤ 'F' then some (c.toNat - 'A'.toNat + 10)
  else none

def byteLength (cs : List Char) : Nat := cs.foldl (fun n c => n + c.utf8Size) 0

/-- What is wrong with an escape that lacks its four digits: if not even four bytes are
left, the string is not finished. -/
def badUnit (cs : List Char) : Error :=
  if byteLength (cs.take 4) < 4 then .eofInString else .invalidEscape

def readUnit : Reader Nat
  | c₁ :: c₂ :: c₃ :: c₄ :: rest =>
    match hexDigit? c₁, hexDigit? c₂, hexDigit? c₃, hexDigit? c₄ with
    | some d₁, some d₂, some d₃, some d₄ =>
      .ok (((d₁ * 16 + d₂) * 16 + d₃) * 16 + d₄, ⟨rest, by simp only [List.length_cons]; omega⟩)
    | _, _, _, _ => .error (badUnit (c₁ :: c₂ :: c₃ :: c₄ :: rest))
  | cs => .error (badUnit cs)

def isHighSurrogate (unit : Nat) : Bool := 0xD800 ≤ unit && unit ≤ 0xDBFF

def isLowSurrogate (unit : Nat) : Bool := 0xDC00 ≤ unit && unit ≤ 0xDFFF

def pairedChar (high low : Nat) : Char :=
  Char.ofNat (0x10000 + (high - 0xD800) * 0x400 + (low - 0xDC00))

/-- The second half of a pair, written as another escape. -/
def readLowSurrogate (high : Nat) : Reader Char
  | [] => .error .eofInString
  | '\\' :: [] => .error .eofInString
  | '\\' :: 'u' :: cs => do
    let (low, rest) ← readUnit cs
    if isLowSurrogate low then
      .ok (pairedChar high low, ⟨rest.val, by
        have := rest.property; simp only [List.length_cons]; omega⟩)
    else
      .error .loneSurrogate
  | _ => .error .unpairedSurrogate

/-- The character of a four-digit escape, read from its digits on. -/
def readUnicode : Reader Char := fun cs => do
  let (unit, rest) ← readUnit cs
  if isLowSurrogate unit then
    .error .loneSurrogate
  else if isHighSurrogate unit then do
    let (c, inner) ← readLowSurrogate unit rest.val
    .ok (c, rest.within inner)
  else
    .ok (Char.ofNat unit, rest)

def simpleEscape? : Char → Option Char
  | '"' => some '"'
  | '\\' => some '\\'
  | '/' => some '/'
  | 'b' => some '\x08'
  | 'f' => some '\x0c'
  | 'n' => some '\n'
  | 'r' => some '\r'
  | 't' => some '\t'
  | _ => none

/-- The character of an escape, read from behind its backslash. -/
def readEscape : Reader Char
  | [] => .error .eofInString
  | 'u' :: cs => do
    let (c, rest) ← readUnicode cs
    .ok (c, (Rest.tail 'u' cs).within rest)
  | e :: cs =>
    match simpleEscape? e with
    | some c => .ok (c, Rest.tail e cs)
    | none => .error .invalidEscape

def skipEscape : Reader Unit
  | [] => .error .eofInString
  | 'u' :: cs => do
    let (_, rest) ← readUnit cs
    .ok ((), (Rest.tail 'u' cs).within rest)
  | e :: cs =>
    if (simpleEscape? e).isSome then .ok ((), Rest.tail e cs) else .error .invalidEscape

/-- The next character of a string, with `escape` for what follows a backslash; nothing at
the closing quote. -/
def readStringChar {α : Type} (escape : Reader α) (plain : Char → α) : Reader (Option α)
  | [] => .error .eofInString
  | '"' :: cs => .ok (none, Rest.tail '"' cs)
  | '\\' :: cs => do
    let (a, rest) ← escape cs
    .ok (some a, (Rest.tail '\\' cs).within rest)
  | c :: cs =>
    if c.toNat < 0x20 then .error .controlCharacter
    else .ok (some (plain c), Rest.tail c cs)

def readChars (acc cs : List Char) : Except Error (List Char × List Char) :=
  match readStringChar readEscape id cs with
  | .error e => .error e
  | .ok (none, rest) => .ok (acc.reverse, rest.val)
  | .ok (some c, rest) => readChars (c :: acc) rest.val
termination_by cs.length
decreasing_by exact rest.property

theorem readChars_shrinks (acc cs : List Char) :
    ∀ {chars rest}, readChars acc cs = .ok (chars, rest) → rest.length < cs.length := by
  fun_induction readChars acc cs with
  | case1 => intro _ _ h; cases h
  | case2 acc cs r hr => intro _ _ h; cases h; exact r.property
  | case3 acc cs c r hr ih => intro _ _ h; exact Nat.lt_trans (ih h) r.property

/-- A string, read from behind its opening quote. -/
def readString : Reader String := fun cs =>
  match h : readChars [] cs with
  | .error e => .error e
  | .ok (chars, rest) => .ok (String.ofList chars, ⟨rest, readChars_shrinks [] cs h⟩)

def dropString (cs : List Char) : Except Error (List Char) :=
  match readStringChar skipEscape (fun _ => ()) cs with
  | .error e => .error e
  | .ok (none, rest) => .ok rest.val
  | .ok (some _, rest) => dropString rest.val
termination_by cs.length
decreasing_by exact rest.property

theorem dropString_shrinks (cs : List Char) :
    ∀ {rest}, dropString cs = .ok rest → rest.length < cs.length := by
  fun_induction dropString cs with
  | case1 => intro _ h; cases h
  | case2 cs r hr => intro _ h; cases h; exact r.property
  | case3 cs c r hr ih => intro _ h; exact Nat.lt_trans (ih h) r.property

def skipString (cs : List Char) : Except Error (Rest cs) :=
  match h : dropString cs with
  | .error e => .error e
  | .ok rest => .ok ⟨rest, dropString_shrinks cs h⟩

end CurriedTypings.Json
