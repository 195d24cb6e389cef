import CurriedTypings.Tables
import Mathlib.Data.List.Induction
import Mathlib.Data.List.TakeWhile
import Mathlib.Data.Nat.Digits.Defs

/-!
# What an arity key stands for

`Denotes` gives the keys and their arities as a language: blanks, at most one plus
sign, at least one decimal digit, blanks, where the digits stand for a number of at
most 64 bits. Reading a key decides it (`read?_eq_some_iff`). The two directions come
from the same facts about each step: trimming takes off blanks at both ends and stops
at whatever is between them, and the sign is told from the digits since it is none.
-/

namespace CurriedTypings

namespace Text

/-- What trimming takes off are blanks. -/
theorem exists_trim (cs : List Char) : ∃ left right, cs = left ++ trim cs ++ right
    ∧ (∀ c ∈ left, isBlank c) ∧ ∀ c ∈ right, isBlank c := by
  have hleft : cs.takeWhile isBlank ++ cs.dropWhile isBlank = cs := List.takeWhile_append_dropWhile
  have hright : trim cs ++ ((cs.dropWhile isBlank).reverse.takeWhile isBlank).reverse
      = cs.dropWhile isBlank := by
    rw [trim, ← List.reverse_append, List.takeWhile_append_dropWhile, List.reverse_reverse]
  refine ⟨cs.takeWhile isBlank, ((cs.dropWhile isBlank).reverse.takeWhile isBlank).reverse, ?_,
    fun c hc => List.mem_takeWhile_imp hc, fun c hc => ?_⟩
  · rw [List.append_assoc, hright, hleft]
  · exact List.mem_takeWhile_imp (List.mem_reverse.mp hc)

theorem dropWhile_isBlank_append {left cs : List Char} (hleft : ∀ c ∈ left, isBlank c)
    (hcs : ∀ c ∈ cs.head?, isBlank c = false) : (left ++ cs).dropWhile isBlank = cs := by
  rw [List.dropWhile_append_of_pos hleft]
  cases cs with
  | nil => rfl
  | cons c cs => rw [List.dropWhile_cons_of_neg (by simp [hcs c rfl])]

/-- Trimming stops at a text that holds no blanks. -/
theorem trim_append {left cs right : List Char} (hleft : ∀ c ∈ left, isBlank c)
    (hright : ∀ c ∈ right, isBlank c) (hne : cs ≠ []) (hcs : ∀ c ∈ cs, isBlank c = false) :
    trim (left ++ cs ++ right) = cs := by
  have hhead : ∀ c ∈ (cs ++ right).head?, isBlank c = false := by
    obtain ⟨c, rest, rfl⟩ := List.exists_cons_of_ne_nil hne
    rintro d hd
    exact hcs d (Option.some.inj hd ▸ List.mem_cons_self ..)
  have hlast : ∀ c ∈ cs.reverse.head?, isBlank c = false :=
    fun c hc => hcs c (List.mem_reverse.mp (List.mem_of_head? hc))
  have hblank : ∀ c ∈ right.reverse, isBlank c := fun c hc => hright c (List.mem_reverse.mp hc)
  rw [trim, List.append_assoc, dropWhile_isBlank_append hleft hhead, List.reverse_append,
    dropWhile_isBlank_append hblank hlast, List.reverse_reverse]

theorem isBlank_of_isDigit {c : Char} (h : c.isDigit) : isBlank c = false := by
  have hdigit : 48 ≤ c.toNat ∧ c.toNat ≤ 57 := Char.isDigit_iff_toNat.mp h
  simp only [isBlank, blankRanges, List.any_cons, List.any_nil, Bool.or_false, Bool.or_eq_false_iff,
    Bool.and_eq_false_iff, decide_eq_false_iff_not]
  omega

end Text

namespace ArityKey

/-- The number that a decimal digit stands for. -/
def digitValue (c : Char) : Nat := c.toNat - '0'.toNat

/-- A key and the arity it stands for: a decimal numeral of at most 64 bits, possibly signed with a
plus and surrounded by blanks. -/
inductive Denotes (key : String) : Nat → Prop
  | numeral {left sign digits right : List Char}
      (spelled : key.toList = left ++ (sign ++ digits) ++ right)
      (before : ∀ c ∈ left, Text.isBlank c) (after : ∀ c ∈ right, Text.isBlank c)
      (signed : sign = [] ∨ sign = ['+']) (nonempty : digits ≠ [])
      (decimal : ∀ c ∈ digits, c.isDigit)
      (small : Nat.ofDigits 10 (digits.reverse.map digitValue) ≤ 2 ^ 64 - 1) :
      Denotes key (Nat.ofDigits 10 (digits.reverse.map digitValue))

theorem value_eq_ofDigits (digits : List Char) :
    value digits = Nat.ofDigits 10 (digits.reverse.map digitValue) := by
  induction digits using List.reverseRecOn with
  | nil => rfl
  | append_singleton digits c ih =>
      have hstep : value (digits ++ [c]) = value digits * 10 + digitValue c := by
        rw [value, List.foldl_append]
        rfl
      rw [hstep, ih, List.reverse_append, List.reverse_singleton, List.singleton_append,
        List.map_cons, Nat.ofDigits_cons]
      omega

theorem exists_dropPlus (cs : List Char) :
    ∃ sign, cs = sign ++ dropPlus cs ∧ (sign = [] ∨ sign = ['+']) := by
  unfold dropPlus
  split
  · exact ⟨['+'], rfl, Or.inr rfl⟩
  · exact ⟨[], rfl, Or.inl rfl⟩

theorem dropPlus_append {sign digits : List Char} (hsign : sign = [] ∨ sign = ['+'])
    (hdigits : ∀ c ∈ digits, c.isDigit) : dropPlus (sign ++ digits) = digits := by
  rcases hsign with rfl | rfl
  · unfold dropPlus
    split
    · rename_i cs heq
      rw [List.nil_append] at heq
      exact absurd (hdigits '+' (heq ▸ List.mem_cons_self ..)) (by decide)
    · rfl
  · rfl

theorem isNumeral_iff {cs : List Char} : isNumeral cs ↔ cs ≠ [] ∧ ∀ c ∈ cs, c.isDigit := by
  simp [isNumeral]

theorem read?_eq_some_iff {key : String} {arity : Nat} :
    read? key = some arity ↔ Denotes key arity := by
  have hlimit : ∀ n, n < limit ↔ n ≤ 2 ^ 64 - 1 := by
    intro n
    rw [limit, Nat.pow_eq]
    omega
  constructor
  · intro h
    obtain ⟨left, right, hkey, hleft, hright⟩ := Text.exists_trim key.toList
    obtain ⟨sign, hcore, hsign⟩ := exists_dropPlus (Text.trim key.toList)
    rw [read?, ite_eq_iff] at h
    obtain ⟨hread, hvalue⟩ := h.resolve_right (by simp)
    rw [Bool.and_eq_true, isNumeral_iff, decide_eq_true_eq, hlimit, value_eq_ofDigits] at hread
    obtain ⟨⟨hne, hdigits⟩, hsmall⟩ := hread
    rw [← Option.some.inj hvalue, value_eq_ofDigits]
    exact .numeral (hcore ▸ hkey) hleft hright hsign hne hdigits hsmall
  · rintro @⟨left, sign, digits, right, spelled, before, after, signed, nonempty, decimal, small⟩
    have hsolid : ∀ c ∈ sign ++ digits, Text.isBlank c = false := by
      intro c hc
      rcases List.mem_append.mp hc with hc | hc
      · rcases signed with rfl | rfl
        · cases hc
        · rw [List.mem_singleton.mp hc]
          decide
      · exact Text.isBlank_of_isDigit (decimal c hc)
    have htrim := Text.trim_append before after (by simp [nonempty]) hsolid
    rw [← value_eq_ofDigits, ← hlimit] at small
    simp only [read?]
    rw [spelled, htrim, dropPlus_append signed decimal,
      if_pos (by simp [isNumeral_iff.mpr ⟨nonempty, decimal⟩, small]), value_eq_ofDigits]

end ArityKey

end CurriedTypings
