import CurriedTypings.Currying
import CurriedTypings.Proofs.Traversal
import Mathlib.Data.List.Count

/-!
# The overloads of a slot list

The overload that takes `n` arguments takes the first `n` slots and returns what waits
for the others (`overloadTaking`). The overloads of a slot list are these, for all numbers
up to its length and in this order (`overloadsFrom_eq_map`); how many there are, what they
take and that a number of arguments decides between them all follows from this.

Currying is refused for the number of slots alone (`curry_eq_ok_iff`,
`curry_eq_error_iff`).

There is an interface for every width up to `maxContinuationWidth`
(`continuationDefinition_ok`). Its parameters are the first variables of the alphabet
and the result variable, and its signatures are the overloads of as many slots, each of
which is typed by its own variable.
-/

namespace CurriedTypings

namespace TypeExpr

/-- What is left of a function once some arguments have been supplied: a continuation over the
types of the others, or the result if there are none. -/
def waitingFor (remaining : List TypeExpr) (result : TypeExpr) : TypeExpr :=
  match remaining with
  | [] => result
  | _ => .continuation remaining result

theorem waitingFor_of_ne_nil {remaining : List TypeExpr} (h : remaining ≠ [])
    (result : TypeExpr) : waitingFor remaining result = .continuation remaining result := by
  cases remaining with
  | nil => exact absurd rfl h
  | cons t ts => rfl

end TypeExpr

theorem returnAfter_eq (remaining : List Slot) (final : TypeExpr) :
    returnAfter remaining final = .waitingFor (remaining.map Slot.type) final := by
  cases remaining <;> rfl

theorem map_type_take_append_drop (slots : List Slot) (n : Nat) :
    (slots.take n).map Slot.type ++ (slots.drop n).map Slot.type = slots.map Slot.type := by
  rw [← List.map_append, List.take_append_drop]

/-- The overload that takes the first `n` slots. -/
def overloadTaking (slots : List Slot) (final : TypeExpr) (n : Nat) : Overload :=
  ⟨slots.take n, .waitingFor ((slots.drop n).map Slot.type) final⟩

theorem returnType_overloadTaking_length (slots : List Slot) (final : TypeExpr) :
    (overloadTaking slots final slots.length).returnType = final := by
  rw [overloadTaking, List.drop_length]
  rfl

theorem returnType_overloadTaking_of_lt {slots : List Slot} {n : Nat} (h : n < slots.length)
    (final : TypeExpr) : (overloadTaking slots final n).returnType
      = .continuation ((slots.drop n).map Slot.type) final := by
  have hne : (slots.drop n).map Slot.type ≠ [] := by
    rwa [Ne, List.map_eq_nil_iff, List.drop_eq_nil_iff, Nat.not_le]
  rw [overloadTaking, TypeExpr.waitingFor_of_ne_nil hne]

theorem length_overloadTaking {slots : List Slot} {n : Nat} (h : n ≤ slots.length)
    (final : TypeExpr) : (overloadTaking slots final n).slots.length = n := by
  rw [overloadTaking, List.length_take, Nat.min_eq_left h]

/-- Overloads that extend a call are those of all slots from its length on. -/
theorem overloadsFrom_eq_map (final : TypeExpr) :
    ∀ (supplied remaining : List Slot), overloadsFrom final supplied remaining
      = (List.range' (supplied.length + 1) remaining.length).map
          (overloadTaking (supplied ++ remaining) final)
  | supplied, [] => rfl
  | supplied, s :: rest => by
      have hall : supplied ++ s :: rest = (supplied ++ [s]) ++ rest := by simp
      have hlength : (supplied ++ [s]).length = supplied.length + 1 := by simp
      have hfirst : overloadTaking (supplied ++ s :: rest) final (supplied.length + 1)
          = ⟨supplied ++ [s], returnAfter rest final⟩ := by
        rw [hall, overloadTaking, ← hlength, List.take_left, List.drop_left, returnAfter_eq]
      rw [overloadsFrom, overloadsFrom_eq_map final (supplied ++ [s]) rest, List.length_cons,
        List.range'_succ, List.map_cons, hfirst, hlength, hall]

/-- The overloads of a slot list are those that take one, two, … or all of the slots. -/
theorem mem_overloadsFrom_iff {slots : List Slot} {final : TypeExpr} {o : Overload} :
    o ∈ overloadsFrom final [] slots ↔
      ∃ n, 0 < n ∧ n ≤ slots.length ∧ overloadTaking slots final n = o := by
  rw [overloadsFrom_eq_map, List.mem_map]
  refine exists_congr fun n => ?_
  rw [List.mem_range'_1, List.length_nil, List.nil_append, ← and_assoc]
  refine and_congr_left fun _ => ?_
  omega

theorem length_overloadsFrom (slots : List Slot) (final : TypeExpr) :
    (overloadsFrom final [] slots).length = slots.length := by
  rw [overloadsFrom_eq_map, List.length_map, List.length_range']

theorem getElem_overloadsFrom {slots : List Slot} {final : TypeExpr} {i : Nat}
    (h : i < (overloadsFrom final [] slots).length) :
    (overloadsFrom final [] slots)[i] = overloadTaking slots final (i + 1) := by
  simp [overloadsFrom_eq_map, Nat.add_comm]

/-- Each overload takes more arguments than those before it. -/
theorem overloadsFrom_increasing (slots : List Slot) (final : TypeExpr) :
    (overloadsFrom final [] slots).Pairwise fun o o' => o.slots.length < o'.slots.length := by
  rw [overloadsFrom_eq_map, List.pairwise_map]
  refine (List.pairwise_lt_range' 1).imp_of_mem fun {m n} hm hn hlt => ?_
  rw [List.mem_range'_1, List.length_nil] at hm hn
  rwa [List.nil_append, length_overloadTaking (by omega), length_overloadTaking (by omega)]

/-- Currying succeeds on slot lists that leave at most as many slots outstanding as there are
interfaces, and then gives one overload for each number of slots. -/
theorem curry_eq_ok_iff {slots : List Slot} {final : TypeExpr} {overloads : List Overload} :
    curry slots final = .ok overloads ↔
      slots ≠ [] ∧ slots.length ≤ maxContinuationWidth + 1
        ∧ overloads = overloadsFrom final [] slots := by
  cases slots with
  | nil => simp [curry]
  | cons s rest =>
      rw [curry]
      by_cases h : maxContinuationWidth < rest.length
      · rw [if_pos h]
        have hlong : ¬ (s :: rest).length ≤ maxContinuationWidth + 1 := by
          rw [List.length_cons]; omega
        exact ⟨nofun, fun hok => absurd hok.2.1 hlong⟩
      · rw [if_neg h]
        have hshort : (s :: rest).length ≤ maxContinuationWidth + 1 := by
          rw [List.length_cons]; omega
        constructor
        · intro heq
          exact ⟨List.cons_ne_nil _ _, hshort, (Except.ok.inj heq).symm⟩
        · rintro ⟨-, -, rfl⟩
          rfl

/-- Currying fails only for the number of slots. -/
theorem curry_eq_error_iff {slots : List Slot} {final : TypeExpr} {e : SignatureError} :
    curry slots final = .error e ↔ slots = [] ∧ e = .emptyParameterList
      ∨ maxContinuationWidth + 1 < slots.length ∧ e = .continuationTooWide (slots.length - 1) := by
  cases slots with
  | nil => simp [curry, eq_comm]
  | cons s rest =>
      rw [curry, List.length_cons, Nat.add_lt_add_iff_right, Nat.add_sub_cancel]
      by_cases h : maxContinuationWidth < rest.length
      · rw [if_pos h, Except.error.injEq]
        simp [h, eq_comm]
      · rw [if_neg h]
        simp [h]

/-- The overload that takes so many arguments, provided that exactly one does. -/
def onlyTaking (overloads : List Overload) (count : Nat) : Option Overload :=
  match overloads.filter fun o => o.slots.length = count with
  | [o] => some o
  | _ => none

/-- For each number of arguments up to the number of slots there is exactly one overload. -/
theorem filter_overloadsFrom {slots : List Slot} {n : Nat} (hpos : 0 < n) (hle : n ≤ slots.length)
    (final : TypeExpr) : ((overloadsFrom final [] slots).filter fun o => o.slots.length = n)
      = [overloadTaking slots final n] := by
  have hlengths : ∀ m ∈ List.range' 1 slots.length,
      decide ((overloadTaking slots final m).slots.length = n) = decide (m = n) := by
    intro m hm
    rw [List.mem_range'_1] at hm
    rw [length_overloadTaking (by omega) final]
  have hmem : n ∈ List.range' 1 slots.length := List.mem_range'_1.mpr (by omega)
  have hnodup : (List.range' 1 slots.length).Nodup := List.nodup_range'
  have hone : (List.range' 1 slots.length).filter (fun m => decide (m = n)) = [n] := by
    rw [List.filter_eq, hnodup.count, if_pos hmem]
    rfl
  rw [overloadsFrom_eq_map, List.filter_map]
  simp only [Function.comp_def, List.nil_append, List.length_nil, Nat.zero_add]
  rw [List.filter_congr hlengths, hone]
  rfl

theorem onlyTaking_overloadsFrom {slots : List Slot} {n : Nat} (hpos : 0 < n)
    (hle : n ≤ slots.length) (final : TypeExpr) :
    onlyTaking (overloadsFrom final [] slots) n = some (overloadTaking slots final n) := by
  rw [onlyTaking, filter_overloadsFrom hpos hle]

/-! ## The interfaces of continuations -/

/-- Up to the size of the alphabet, the slots of an interface are typed by its variables. -/
theorem continuationSlots_ok {width : Nat} (h : width ≤ TypeVar.slotVars.length) :
    ∃ slots, continuationSlots width = .ok slots
      ∧ slots.map Slot.generic = TypeVar.slotVars.take width
      ∧ slots.map Slot.type = (TypeVar.slotVars.take width).map .var := by
  have hcases : width = 0 ∨ width = 1 ∨ width = 2 ∨ width = 3 ∨ width = 4 := by
    have hsize : TypeVar.slotVars.length = 4 := rfl
    omega
  rcases hcases with rfl | rfl | rfl | rfl | rfl <;> exact ⟨_, rfl, rfl, rfl⟩

theorem maxContinuationWidth_le : maxContinuationWidth ≤ TypeVar.slotVars.length := by decide

theorem continuationDefinition_ok {width : Nat} (hpos : 0 < width)
    (hle : width ≤ maxContinuationWidth) :
    ∃ slots, continuationDefinition width
        = .ok ⟨width, TypeVar.slotVars.take width ++ [.result],
            overloadsFrom (.var .result) [] slots⟩
      ∧ slots.map Slot.type = (TypeVar.slotVars.take width).map .var := by
  have hvars := Nat.le_trans hle maxContinuationWidth_le
  obtain ⟨slots, hslots, hgeneric, htype⟩ := continuationSlots_ok hvars
  have hlength : slots.length = width := by
    rw [← List.length_map Slot.generic, hgeneric, List.length_take, Nat.min_eq_left hvars]
  have hne : slots ≠ [] := by
    rintro rfl
    exact absurd hlength (Nat.ne_of_lt hpos)
  have hcurry : curry slots (.var .result) = .ok (overloadsFrom (.var .result) [] slots) :=
    curry_eq_ok_iff.mpr ⟨hne, by omega, rfl⟩
  refine ⟨slots, ?_, htype⟩
  rw [continuationDefinition, if_neg (by omega), if_neg (by omega), hslots, bind_ok, hcurry,
    bind_ok, hgeneric]
  rfl

/-- Every module finds its interfaces. -/
theorem continuationDefinitions_ok :
    ∃ definitions, continuationDefinitions = .ok definitions := by
  refine mapM_ok_of_forall ?_
  intro width hwidth
  rw [List.mem_range'_1] at hwidth
  have hle : width ≤ maxContinuationWidth := by omega
  obtain ⟨slots, hd, -⟩ := continuationDefinition_ok hwidth.1 hle
  exact ⟨_, hd⟩

end CurriedTypings
