import CurriedTypings.Json.Token
import CurriedTypings.Table
import CurriedTypings.Tables

/-!
# The forms of a document

The same value can be written in many ways: with space between tokens, with characters of
strings escaped or not, with the members of a record in any order and among others. This
module says which texts these are, without reading any of them. A form is a relation between
a value and the characters it may be written with.

Lists and objects are enclosed listings: items with space around them and a comma between any
two. A record is an object each of whose fields occurs at most once. Members that are no
fields hold any value at all, of which only the syntax counts (`IsValue`).
-/

namespace CurriedTypings.Json

def Spaces (cs : List Char) : Prop := ∀ c ∈ cs, isSpace c

instance (cs : List Char) : Decidable (Spaces cs) := List.decidableBAll (fun c => isSpace c = true) cs

/-! ## Strings -/

def HexDigit (d : Nat) (c : Char) : Prop :=
  d < 16 ∧ (c = Nat.digitChar d ∨ c = (Nat.digitChar d).toUpper)

instance (d : Nat) (c : Char) : Decidable (HexDigit d c) :=
  inferInstanceAs (Decidable (d < 16 ∧ (c = Nat.digitChar d ∨ c = (Nat.digitChar d).toUpper)))

inductive UnitForm : Nat → List Char → Prop
  | digits {d₁ d₂ d₃ d₄ : Nat} {c₁ c₂ c₃ c₄ : Char} (h₁ : HexDigit d₁ c₁) (h₂ : HexDigit d₂ c₂)
      (h₃ : HexDigit d₃ c₃) (h₄ : HexDigit d₄ c₄) :
      UnitForm (((d₁ * 16 + d₂) * 16 + d₃) * 16 + d₄) [c₁, c₂, c₃, c₄]

/-- The escapes of one letter, with the characters they stand for. -/
def letterEscapes : List (Char × Char) :=
  [('"', '"'), ('\\', '\\'), ('/', '/'), ('b', '\x08'), ('f', '\x0c'), ('n', '\n'), ('r', '\r'),
    ('t', '\t')]

/-- Whether a character may stand for itself in a string. -/
def IsPlain (c : Char) : Prop := c ≠ '"' ∧ c ≠ '\\' ∧ 0x20 ≤ c.toNat

instance (c : Char) : Decidable (IsPlain c) :=
  inferInstanceAs (Decidable (c ≠ '"' ∧ c ≠ '\\' ∧ 0x20 ≤ c.toNat))

def ArePlain (cs : List Char) : Prop := ∀ c ∈ cs, IsPlain c

instance (cs : List Char) : Decidable (ArePlain cs) := List.decidableBAll IsPlain cs

/-- The ways to write a character in a string. Beyond the first plane it takes two code units,
a high surrogate and a low one. -/
inductive CharForm : Char → List Char → Prop
  | plain {c : Char} (h : IsPlain c) : CharForm c [c]
  | letter {e c : Char} (h : (e, c) ∈ letterEscapes) : CharForm c ['\\', e]
  | unit {c : Char} {cs : List Char} (h : UnitForm c.toNat cs) : CharForm c ('\\' :: 'u' :: cs)
  | pair {c : Char} {a b : Nat} {high low : List Char} (ha : a < 0x400) (hb : b < 0x400)
      (value : c.toNat = 0x10000 + a * 0x400 + b) (hhigh : UnitForm (0xD800 + a) high)
      (hlow : UnitForm (0xDC00 + b) low) :
      CharForm c ('\\' :: 'u' :: (high ++ '\\' :: 'u' :: low))

inductive CharsForm : List Char → List Char → Prop
  | nil : CharsForm [] []
  | cons {c : Char} {chars form forms : List Char} (head : CharForm c form)
      (rest : CharsForm chars forms) : CharsForm (c :: chars) (form ++ forms)

def StringForm (s : String) (cs : List Char) : Prop :=
  ∃ forms, CharsForm s.toList forms ∧ cs = '"' :: (forms ++ ['"'])

theorem charsForm_plain {chars : List Char} (h : ArePlain chars) : CharsForm chars chars := by
  induction chars with
  | nil => exact .nil
  | cons c chars ih =>
      obtain ⟨hc, hchars⟩ := List.forall_mem_cons.mp h
      exact .cons (.plain hc) (ih hchars)

theorem CharsForm.append {chars chars' forms forms' : List Char} (h : CharsForm chars forms)
    (h' : CharsForm chars' forms') : CharsForm (chars ++ chars') (forms ++ forms') := by
  induction h with
  | nil => exact h'
  | @cons c chars form forms head _ ih =>
      rw [List.cons_append, List.append_assoc]
      exact .cons head ih

theorem stringForm_plain {s : String} (h : ArePlain s.toList) :
    StringForm s ('"' :: (s.toList ++ ['"'])) :=
  ⟨s.toList, charsForm_plain h, rfl⟩

/-- What may stand between quotes, whether or not its code units make up characters. -/
inductive IsChars : List Char → Prop
  | nil : IsChars []
  | plain {c : Char} {cs : List Char} (h : IsPlain c) (rest : IsChars cs) : IsChars (c :: cs)
  | letter {e c : Char} {cs : List Char} (h : (e, c) ∈ letterEscapes) (rest : IsChars cs) :
      IsChars ('\\' :: e :: cs)
  | unit {n : Nat} {form cs : List Char} (h : UnitForm n form) (rest : IsChars cs) :
      IsChars ('\\' :: 'u' :: (form ++ cs))

def IsString (cs : List Char) : Prop := ∃ chars, IsChars chars ∧ cs = '"' :: (chars ++ ['"'])

/-! ## Numbers and truth values -/

def IsDigits (cs : List Char) : Prop := cs ≠ [] ∧ ∀ c ∈ cs, c.isDigit

instance (cs : List Char) : Decidable (IsDigits cs) :=
  @instDecidableAnd _ _ _ (List.decidableBAll (fun c => c.isDigit = true) cs)

/-- Digits that do not start with a zero unless there is no other one. -/
def IsInteger (cs : List Char) : Prop := IsDigits cs ∧ (cs.head? = some '0' → cs = ['0'])

/-- A fraction, or nothing. -/
def IsFraction (cs : List Char) : Prop := cs = [] ∨ ∃ digits, IsDigits digits ∧ cs = '.' :: digits

/-- An exponent, or nothing. -/
def IsExponent (cs : List Char) : Prop :=
  cs = [] ∨ ∃ e sign digits, (e = 'e' ∨ e = 'E') ∧ (sign = [] ∨ sign = ['+'] ∨ sign = ['-'])
    ∧ IsDigits digits ∧ cs = e :: (sign ++ digits)

def IsNumeral (cs : List Char) : Prop :=
  ∃ integer fraction exponent, IsInteger integer ∧ IsFraction fraction ∧ IsExponent exponent
    ∧ cs = integer ++ fraction ++ exponent

def IsNumber (cs : List Char) : Prop := IsNumeral cs ∨ ∃ numeral, IsNumeral numeral ∧ cs = '-' :: numeral

def NaturalForm (n : Nat) (cs : List Char) : Prop := IsInteger cs ∧ ArityKey.value cs = n

def BooleanForm (b : Bool) (cs : List Char) : Prop :=
  cs = if b then "true".toList else "false".toList

/-! ## Lists and objects -/

section Listings

variable {α β : Type} (item : β → List Char → Prop)

def Padded (b : β) (cs : List Char) : Prop :=
  ∃ before form after, Spaces before ∧ item b form ∧ Spaces after ∧ cs = before ++ form ++ after

/-- Items, at least one, with a comma between any two. -/
inductive Listing : List β → List Char → Prop
  | last {b : β} {cs : List Char} (h : Padded item b cs) : Listing [b] cs
  | cons {b : β} {bs : List β} {cs tail : List Char} (h : Padded item b cs) (rest : Listing bs tail) :
      Listing (b :: bs) (cs ++ ',' :: tail)

/-- Items between an opening and a closing character. -/
inductive Enclosed (opening closing : Char) : List β → List Char → Prop
  | empty {ws : List Char} (h : Spaces ws) : Enclosed opening closing [] (opening :: (ws ++ [closing]))
  | full {bs : List β} {body : List Char} (h : Listing item bs body) :
      Enclosed opening closing bs (opening :: (body ++ [closing]))

def ListForm : List β → List Char → Prop := Enclosed item '[' ']'

def MemberForm (key : α → List Char → Prop) (value : β → List Char → Prop) (m : α × β)
    (cs : List Char) : Prop :=
  ∃ k before after v, key m.1 k ∧ Spaces before ∧ Spaces after ∧ value m.2 v
    ∧ cs = k ++ before ++ ':' :: (after ++ v)

def ObjectForm (key : α → List Char → Prop) (value : β → List Char → Prop) :
    List (α × β) → List Char → Prop := Enclosed (MemberForm key value) '{' '}'

end Listings

theorem Listing.imp {β : Type} {item item' : β → List Char → Prop} {bs : List β} {cs : List Char}
    (h : Listing item bs cs) (himp : ∀ b ∈ bs, ∀ cs, item b cs → item' b cs) :
    Listing item' bs cs := by
  have hpadded : ∀ b ∈ bs, ∀ cs, Padded item b cs → Padded item' b cs := by
    rintro b hb cs ⟨before, form, after, hbefore, hitem, hafter, rfl⟩
    exact ⟨before, form, after, hbefore, himp b hb form hitem, hafter, rfl⟩
  induction h with
  | last h => exact .last (hpadded _ List.mem_cons_self _ h)
  | cons h _ ih =>
      have htail := ih (fun b hb => himp b (List.mem_cons_of_mem _ hb))
        (fun b hb => hpadded b (List.mem_cons_of_mem _ hb))
      exact .cons (hpadded _ List.mem_cons_self _ h) htail

def TableForm {α : Type} (value : α → List Char → Prop) : Table α → List Char → Prop :=
  ObjectForm StringForm value

theorem TableForm.imp {α : Type} {value value' : α → List Char → Prop} {t : Table α}
    {cs : List Char} (h : TableForm value t cs)
    (himp : ∀ entry ∈ t, ∀ cs, value entry.2 cs → value' entry.2 cs) : TableForm value' t cs := by
  cases h with
  | empty hspace => exact .empty hspace
  | full hlisting =>
      refine .full (hlisting.imp ?_)
      rintro entry hentry cs ⟨k, before, after, v, hk, hbefore, hafter, hv, rfl⟩
      exact ⟨k, before, after, v, hk, hbefore, hafter, himp entry hentry v hv, rfl⟩

theorem padded {β : Type} {item : β → List Char → Prop} {b : β} {cs : List Char}
    (before after : List Char) (h : item b cs) (spaces : Spaces (before ++ after) := by decide) :
    Padded item b (before ++ cs ++ after) :=
  have hspaces := List.forall_mem_append.mp spaces
  ⟨before, cs, after, hspaces.1, h, hspaces.2, rfl⟩

theorem memberForm {α β : Type} {key : α → List Char → Prop} {value : β → List Char → Prop}
    {m : α × β} {k v : List Char} (before after : List Char) (hk : key m.1 k) (hv : value m.2 v)
    (spaces : Spaces (before ++ after) := by decide) :
    MemberForm key value m (k ++ before ++ ':' :: (after ++ v)) :=
  have hspaces := List.forall_mem_append.mp spaces
  ⟨k, before, after, v, hk, hspaces.1, hspaces.2, hv, rfl⟩

/-! ## Any value -/

inductive IsValue : List Char → Prop
  | word {cs : List Char} (h : cs ∈ ["null".toList, "true".toList, "false".toList]) : IsValue cs
  | number {cs : List Char} (h : IsNumber cs) : IsValue cs
  | string {cs : List Char} (h : IsString cs) : IsValue cs
  | list {items : List (List Char)} {cs : List Char} (values : ∀ v ∈ items, IsValue v)
      (h : ListForm Eq items cs) : IsValue cs
  | object {members : List (List Char × List Char)} {cs : List Char}
      (keys : ∀ m ∈ members, IsString m.1) (values : ∀ m ∈ members, IsValue m.2)
      (h : ObjectForm Eq Eq members cs) : IsValue cs

/-! ## Records -/

/-- How a field of a record is written, and whether it has to be. -/
structure FieldForm where
  name : String
  form : List Char → Prop
  needed : Prop

/-- The ways to write a record: its fields in any order, among members that are none. -/
def RecordForm (fields : List FieldForm) (cs : List Char) : Prop :=
  ∃ members : List (String × List Char), ObjectForm StringForm Eq members cs
    ∧ (∀ f ∈ fields, (members.map Prod.fst).count f.name ≤ 1
        ∧ (f.needed → f.name ∈ members.map Prod.fst))
    ∧ ∀ m ∈ members, (∀ f ∈ fields, f.name = m.1 → f.form m.2)
        ∧ ((∀ f ∈ fields, f.name ≠ m.1) → IsValue m.2)

end CurriedTypings.Json
