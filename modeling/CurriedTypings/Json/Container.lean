import CurriedTypings.Json.Number
import CurriedTypings.Json.Text

/-!
# Lists and objects

Elements and members are read one at a time. Between them stands a comma, which
has to be followed by another one. A list may be read to its end, whatever its
length, or for as many elements as are wanted; it then has to end there.

A member that nobody asked for is skipped, whatever its value. Its syntax is still
checked, but not what it stands for. Values may be nested to any depth: the
containers that are open are kept in a list, and each step takes at least one
character.
-/

namespace CurriedTypings.Json

/-! ## Skipped values -/

inductive Container where
  | list
  | object
  deriving DecidableEq, Repr

/-- Where a walk through a value stands. -/
inductive Awaiting where
  | value
  | separator
  deriving DecidableEq, Repr

/-- What remains to be done: nothing, or to go on inside these containers. -/
abbrev Pending := Option (Awaiting × List Container)

def ended : List Container → Pending
  | [] => none
  | containers => some (.separator, containers)

/-- A key and its colon, read up to the member's value. -/
def skipKey (cs : List Char) : Except Error (Rest cs) :=
  match nextToken cs with
  | none => .error .eofInObject
  | some ('"', rest) => do
    let inner ← skipString rest.val
    let colon ← readColon inner.val
    .ok (rest.within (inner.within colon))
  | some _ => .error .keyMustBeString

def skipOpening (containers : List Container) (cs : List Char) :
    Container → Except Error (Pending × Remaining cs)
  | .list =>
    match nextToken cs with
    | none => .error .eofInList
    | some (']', rest) => .ok (ended containers, rest.remaining)
    | some _ => .ok (some (.value, .list :: containers), .all cs)
  | .object =>
    match nextToken cs with
    | none => .error .eofInObject
    | some ('}', rest) => .ok (ended containers, rest.remaining)
    | some _ => do
      let rest ← skipKey cs
      .ok (some (.value, .object :: containers), rest.remaining)

def skipStart (containers : List Container) : Reader Pending := fun cs =>
  match nextToken cs with
  | none => .error .eofInValue
  | some (c, rest) =>
    if c = 'n' then do
      let r ← readWord ['u', 'l', 'l'] rest.val
      .ok (ended containers, rest.before r)
    else if c = 't' then do
      let r ← readWord ['r', 'u', 'e'] rest.val
      .ok (ended containers, rest.before r)
    else if c = 'f' then do
      let r ← readWord ['a', 'l', 's', 'e'] rest.val
      .ok (ended containers, rest.before r)
    else if c = '-' then do
      let r ← skipNumber rest.val
      .ok (ended containers, rest.within r)
    else if c = '"' then do
      let r ← skipString rest.val
      .ok (ended containers, rest.within r)
    else if c = '[' then do
      let (pending, r) ← skipOpening containers rest.val .list
      .ok (pending, rest.before r)
    else if c = '{' then do
      let (pending, r) ← skipOpening containers rest.val .object
      .ok (pending, rest.before r)
    else if c.isDigit then do
      let r ← skipNumber (c :: rest.val)
      .ok (ended containers, Rest.after (rest.withFirst c) r)
    else
      .error .expectedValue

def skipSeparator (inner : Container) (outer : List Container) : Reader Pending := fun cs =>
  match inner, nextToken cs with
  | .list, none => .error .eofInList
  | .list, some (',', rest) => .ok (some (.value, .list :: outer), rest)
  | .list, some (']', rest) => .ok (ended outer, rest)
  | .list, some _ => .error .expectedCommaOrListEnd
  | .object, none => .error .eofInObject
  | .object, some (',', rest) => do
    let key ← skipKey rest.val
    .ok (some (.value, .object :: outer), rest.within key)
  | .object, some ('}', rest) => .ok (ended outer, rest)
  | .object, some _ => .error .expectedCommaOrObjectEnd

def skipStep : Awaiting → List Container → Reader Pending
  | .value, containers => skipStart containers
  | .separator, inner :: outer => skipSeparator inner outer
  | .separator, [] => fun _ => .error .expectedValue

/-- Walks to the end of a value. -/
def dropValue (awaiting : Awaiting) (containers : List Container) (cs : List Char) :
    Except Error (List Char) :=
  match skipStep awaiting containers cs with
  | .error e => .error e
  | .ok (none, rest) => .ok rest.val
  | .ok (some (awaiting, containers), rest) => dropValue awaiting containers rest.val
termination_by cs.length
decreasing_by exact rest.property

theorem dropValue_shrinks (awaiting : Awaiting) (containers : List Container)
    (cs : List Char) :
    ∀ {rest}, dropValue awaiting containers cs = .ok rest → rest.length < cs.length := by
  fun_induction dropValue awaiting containers cs with
  | case1 => intro _ h; cases h
  | case2 a containers cs r hr => intro _ h; cases h; exact r.property
  | case3 a containers cs a' containers' r hr ih =>
    intro _ h; exact Nat.lt_trans (ih h) r.property

def skipValue : Reader Unit := fun cs =>
  match h : dropValue .value [] cs with
  | .error e => .error e
  | .ok rest => .ok ((), ⟨rest, dropValue_shrinks .value [] cs h⟩)

/-! ## Elements and members -/

inductive NextElement (cs : List Char) where
  | done (rest : Rest cs)
  | element (start : Remaining cs)

def nextElement (first : Bool) (cs : List Char) : Except Error (NextElement cs) :=
  match nextToken cs with
  | none => .error .eofInList
  | some (c, rest) =>
    if c = ']' then
      .ok (.done rest)
    else if first then
      .ok (.element (.all cs))
    else if c = ',' then
      match nextToken rest.val with
      | none => .error .eofInValue
      | some (']', _) => .error .trailingComma
      | some _ => .ok (.element rest.remaining)
    else
      .error .expectedCommaOrListEnd

/-- The end of a list of which no more elements are wanted. -/
def endList (cs : List Char) : Except Error (Rest cs) :=
  match nextToken cs with
  | none => .error .eofInList
  | some (']', rest) => .ok rest
  | some (',', rest) =>
    match nextToken rest.val with
    | some (']', _) => .error .trailingComma
    | _ => .error .trailingCharacters
  | some _ => .error .trailingCharacters

/-- The elements of a list up to its end, read from behind its bracket. -/
def readElements {α : Type} (item : Reader α) (first : Bool) (cs : List Char) :
    Except Error (List α × Rest cs) :=
  match nextElement first cs with
  | .error e => .error e
  | .ok (.done rest) => .ok ([], rest)
  | .ok (.element start) =>
    match item start.val with
    | .error e => .error e
    | .ok (a, rest) =>
      match readElements item false rest.val with
      | .error e => .error e
      | .ok (as, inner) => .ok (a :: as, (Rest.after start rest).within inner)
termination_by cs.length
decreasing_by exact Nat.lt_of_lt_of_le rest.property start.property

inductive NextMember (cs : List Char) where
  | done (rest : Rest cs)
  | member (key : String) (rest : Rest cs)

def readKey {cs : List Char} (c : Char) (rest : Rest cs) : Except Error (NextMember cs) :=
  if c = '"' then do
    let (key, inner) ← readString rest.val
    .ok (.member key (rest.within inner))
  else
    .error .keyMustBeString

/-- Looks for the next member of an object, which is the first one or not, and reads its key. -/
def nextMember (first : Bool) (cs : List Char) : Except Error (NextMember cs) :=
  match nextToken cs with
  | none => .error .eofInObject
  | some (c, rest) =>
    if c = '}' then
      .ok (.done rest)
    else if first then
      readKey c rest
    else if c = ',' then
      match nextToken rest.val with
      | none => .error .eofInValue
      | some ('}', _) => .error .trailingComma
      | some (k, inner) => readKey k (rest.within inner)
    else
      .error .expectedCommaOrObjectEnd

/-- The members of an object up to its end, read from behind its brace; each one changes what
is known so far. -/
def readMembers {σ : Type} (onMember : String → σ → Reader σ) (first : Bool) (s : σ)
    (cs : List Char) : Except Error (σ × Rest cs) :=
  match nextMember first cs with
  | .error e => .error e
  | .ok (.done rest) => .ok (s, rest)
  | .ok (.member key rest) =>
    match onMember key s rest.val with
    | .error e => .error e
    | .ok (s', inner) =>
      match readMembers onMember false s' inner.val with
      | .error e => .error e
      | .ok (s'', last) => .ok (s'', (rest.within inner).within last)
termination_by cs.length
decreasing_by exact Nat.lt_trans inner.property rest.property

/-- A member's value, read from its colon on. -/
def memberValue {α : Type} (value : Reader α) : Reader α := fun cs => do
  let colon ← readColon cs
  let (a, rest) ← value colon.val
  .ok (a, colon.within rest)

end CurriedTypings.Json
