import CurriedTypings.Json.Container
import CurriedTypings.Tables

/-!
# Values of a known kind

Readers for values whose kind is known beforehand: strings, booleans, bounded
numbers, names out of a closed set, lists, tables, records. A value of another kind is
refused when it starts, except that a string or a number is read first, so that
the message can show it.

A record is written as an object with its fields in any order, or as a list with
its fields in the order of their declaration. In an object, members that are no
fields are skipped, a field given twice is refused, and a field that must be there
is missed when the object ends. In a list, fields may only be left out at the end.
-/

namespace CurriedTypings.Json

/-- What is wrong with a value that is not of the expected kind. -/
def mismatch (expected : String) (cs : List Char) : Error :=
  match nextToken cs with
  | none => .eofInValue
  | some (c, rest) =>
    if c = 'n' then word ['u', 'l', 'l'] rest.val .null
    else if c = 't' then word ['r', 'u', 'e'] rest.val (.boolean true)
    else if c = 'f' then word ['a', 'l', 's', 'e'] rest.val (.boolean false)
    else if c = '-' then number (readNumber true rest.val)
    else if c.isDigit then number (readNumber false (c :: rest.val))
    else if c = '"' then
      match readString rest.val with
      | .ok (s, _) => .invalidType (.string s) expected
      | .error e => e
    else if c = '[' then .invalidType .sequence expected
    else if c = '{' then .invalidType .map expected
    else .expectedValue
where
  word (letters cs : List Char) (found : Found) : Error :=
    match readWord letters cs with
    | .ok _ => .invalidType found expected
    | .error e => e
  number {cs : List Char} : Except Error (Number × Rest cs) → Error
    | .ok (n, _) => .invalidType n.found expected
    | .error e => e

def string (expected : String) : Reader String := fun cs =>
  match nextToken cs with
  | some ('"', rest) => do
    let (s, inner) ← readString rest.val
    .ok (s, rest.within inner)
  | _ => .error (mismatch expected cs)

def text : Reader String := string "a string"

def boolean : Reader Bool := fun cs =>
  match nextToken cs with
  | some ('t', rest) => do
    let r ← readWord ['r', 'u', 'e'] rest.val
    .ok (true, rest.before r)
  | some ('f', rest) => do
    let r ← readWord ['a', 'l', 's', 'e'] rest.val
    .ok (false, rest.before r)
  | _ => .error (mismatch "a boolean" cs)

def null (expected : String) : Reader Unit := fun cs =>
  match nextToken cs with
  | some ('n', rest) => do
    let r ← readWord ['u', 'l', 'l'] rest.val
    .ok ((), rest.before r)
  | _ => .error (mismatch expected cs)

def optional {α : Type} (value : Reader α) : Reader (Option α) := fun cs =>
  match nextToken cs with
  | some ('n', rest) => do
    let r ← readWord ['u', 'l', 'l'] rest.val
    .ok (none, rest.before r)
  | _ => do
    let (a, rest) ← value cs
    .ok (some a, rest)

/-- A range of natural numbers with the name it has in messages. -/
structure NaturalRange where
  name : String
  limit : Nat

def NaturalRange.byte : NaturalRange := ⟨"u8", Nat.pow 2 8⟩

def NaturalRange.word : NaturalRange := ⟨"usize", Nat.pow 2 64⟩

def NaturalRange.check (range : NaturalRange) : Number → Except Error Nat
  | .integer n =>
    if 0 ≤ n && n.toNat < range.limit then .ok n.toNat
    else .error (.invalidValue (.integer n) range.name)
  | .floating x => .error (.invalidType (.floating x) range.name)

def natural (range : NaturalRange) : Reader Nat := fun cs =>
  match nextToken cs with
  | none => .error .eofInValue
  | some (c, rest) =>
    if c = '-' then do
      let (n, inner) ← readNumber true rest.val
      let value ← range.check n
      .ok (value, rest.within inner)
    else if c.isDigit then do
      let (n, inner) ← readNumber false (c :: rest.val)
      let value ← range.check n
      .ok (value, Rest.after (rest.withFirst c) inner)
    else
      .error (mismatch range.name cs)

/-- One of some names, each standing for a value. -/
def Variants (α : Type) := List (String × α)

def Variants.check {α : Type} (variants : Variants α) (name : String) : Except Error α :=
  match List.lookup name variants with
  | some a => .ok a
  | none => .error (.unknownVariant name (variants.map Prod.fst))

/-- The key of an object that names a variant; it has to be there. -/
def variantKey : Reader String := fun cs =>
  match nextToken cs with
  | none => .error .eofInObject
  | some ('"', rest) => do
    let (name, inner) ← readString rest.val
    .ok (name, rest.within inner)
  | some ('}', _) => .error .expectedValue
  | some _ => .error .keyMustBeString

/-- A name out of a closed set, alone or as the only key of an object with the value `null`. -/
def variant {α : Type} (variants : Variants α) : Reader α := fun cs =>
  match nextToken cs with
  | none => .error .eofInValue
  | some ('"', rest) => do
    let (name, inner) ← readString rest.val
    let a ← variants.check name
    .ok (a, rest.within inner)
  | some ('{', rest) => do
    let (name, r₁) ← variantKey rest.val
    let a ← variants.check name
    let (_, r₂) ← memberValue (null "unit") r₁.val
    match nextToken r₂.val with
    | some ('}', r₃) => .ok (a, rest.within (r₁.within (r₂.within r₃)))
    | some _ => .error .expectedValue
    | none => .error .eofInObject
  | some _ => .error .expectedValue

def list {α : Type} (item : Reader α) : Reader (List α) := fun cs =>
  match nextToken cs with
  | some ('[', rest) => do
    let (as, inner) ← readElements item true rest.val
    .ok (as, rest.within inner)
  | _ => .error (mismatch "a sequence" cs)

/-- An object with any keys; a key that comes again takes its last value in its first place. -/
def table {α : Type} (value : Reader α) : Reader (Table α) := fun cs =>
  match nextToken cs with
  | some ('{', rest) => do
    let (t, inner) ← readMembers onMember true [] rest.val
    .ok (t, rest.within inner)
  | _ => .error (mismatch "a map" cs)
where
  onMember (key : String) (t : Table α) : Reader (Table α) := fun cs => do
    let (a, rest) ← memberValue value cs
    .ok (t.put key a, rest)

def tupleName (length : Nat) : String := "a tuple of size " ++ toString length

/-- The element at `index` of a list with exactly `length` elements, which has to be there. -/
def tupleElement {α : Type} (item : Reader α) (length index : Nat) : Reader α := fun cs => do
  match ← nextElement (index == 0) cs with
  | .done _ => .error (.invalidLength index (tupleName length))
  | .element start => do
    let (a, rest) ← item start.val
    .ok (a, Rest.after start rest)

def pair {α β : Type} (first : Reader α) (second : Reader β) : Reader (α × β) := fun cs =>
  match nextToken cs with
  | some ('[', rest) => do
    let (a, r₁) ← tupleElement first 2 0 rest.val
    let (b, r₂) ← tupleElement second 2 1 r₁.val
    let r₃ ← endList r₂.val
    .ok ((a, b), rest.within (r₁.within (r₂.within r₃)))
  | _ => .error (mismatch (tupleName 2) cs)

def triple {α β γ : Type} (first : Reader α) (second : Reader β) (third : Reader γ) :
    Reader (α × β × γ) := fun cs =>
  match nextToken cs with
  | some ('[', rest) => do
    let (a, r₁) ← tupleElement first 3 0 rest.val
    let (b, r₂) ← tupleElement second 3 1 r₁.val
    let (c, r₃) ← tupleElement third 3 2 r₂.val
    let r₄ ← endList r₃.val
    .ok ((a, b, c), rest.within (r₁.within (r₂.within (r₃.within r₄))))
  | _ => .error (mismatch (tupleName 3) cs)

def document {α : Type} (value : Reader α) (source : String) : Except Error α := do
  let (a, rest) ← value source.toList
  readEnd rest.val
  .ok a

/-! ## Records -/

/-- A field of a record; `σ` is what is known of the record while it is read. -/
structure Field (σ : Type) where
  name : String
  required : Bool := false
  isSet : σ → Bool
  read : σ → Reader σ

/-- A field that is kept as an optional value while the record is read. -/
def Field.of {σ α : Type} (name : String) (required : Bool) (value : Reader α)
    (get : σ → Option α) (set : σ → α → σ) : Field σ where
  name := name
  required := required
  isSet s := (get s).isSome
  read s cs := do
    let (a, rest) ← value cs
    .ok (set s a, rest)

structure Shape (σ : Type) where
  name : String
  fields : List (Field σ)

namespace Shape

variable {σ : Type}

def listName (shape : Shape σ) : String :=
  shape.name ++ " with " ++ toString shape.fields.length ++ " elements"

def onMember (shape : Shape σ) (key : String) (s : σ) : Reader σ := fun cs =>
  match shape.fields.find? fun f => f.name = key with
  | some field =>
    if field.isSet s then .error (.duplicateField key) else memberValue (field.read s) cs
  | none => do
    let (_, rest) ← memberValue skipValue cs
    .ok (s, rest)

def checkComplete (shape : Shape σ) (s : σ) : Except Error Unit :=
  match shape.fields.find? fun f => f.required && !f.isSet s with
  | some field => .error (.missingField field.name)
  | none => .ok ()

/-- Reads the fields of the list form, the first of them at `index`. -/
def readFields (shape : Shape σ) : (fields : List (Field σ)) → (index : Nat) → σ → Reader σ
  | [], _, s, cs => do
    let rest ← endList cs
    .ok (s, rest)
  | field :: fields, index, s, cs => do
    match ← nextElement (index == 0) cs with
    | .done rest =>
      if (field :: fields).any Field.required then
        .error (.invalidLength index shape.listName)
      else
        .ok (s, rest)
    | .element start => do
      let (s', rest) ← field.read s start.val
      let (s'', last) ← shape.readFields fields (index + 1) s' rest.val
      .ok (s'', (Rest.after start rest).within last)

/-- Reads a record; nothing is known at the start. -/
def reader (shape : Shape σ) (start : σ) : Reader σ := fun cs =>
  match nextToken cs with
  | some ('{', rest) => do
    let (s, inner) ← readMembers shape.onMember true start rest.val
    shape.checkComplete s
    .ok (s, rest.within inner)
  | some ('[', rest) => do
    let (s, inner) ← shape.readFields shape.fields 0 start rest.val
    .ok (s, rest.within inner)
  | _ => .error (mismatch shape.name cs)

end Shape

end CurriedTypings.Json
