import CurriedTypings.Proofs.Overloads
import CurriedTypings.Proofs.PlanVariables

/-!
# Closed signatures

Nothing is lost between the slots of a function and any of its overloads: the types of
the parameters supplied, followed by those that the continuation waits for and the
result, have the very leaves of all slots and the final return type, in order
(`leaves_overloadTaking`). An overload therefore refers to all variables of the
function and to no others.

The only continuation that currying adds to the types it is given is the return type
of an incomplete overload, and it is as wide as there are slots outstanding
(`mem_widths_overloadTaking`). This is at least one and at most the width of the
largest interface, so there is an interface for it; inside an interface it is less
than the number of its slots.
-/

namespace CurriedTypings

/-- Some of the types refers to this variable. -/
def RefersTo (ts : List TypeExpr) (v : TypeVar) : Prop := ∃ t ∈ ts, v ∈ t.vars

/-- The types of an overload: its parameters', then what it returns. -/
def Overload.types (o : Overload) : List TypeExpr := o.slotTypes ++ [o.returnType]

/-- The types that the overloads of these slots are made from. -/
def signatureTypes (slots : List Slot) (final : TypeExpr) : List TypeExpr :=
  slots.map Slot.type ++ [final]

theorem refersTo_iff {ts : List TypeExpr} {v : TypeVar} :
    RefersTo ts v ↔ v ∈ TypeExpr.leavesOfAll ts := by
  rw [TypeExpr.leavesOfAll_eq_flatMap, List.mem_flatMap, RefersTo]
  simp only [TypeExpr.mem_vars]

/-! ## Variables -/

namespace TypeExpr

theorem leaves_waitingFor (ts : List TypeExpr) (result : TypeExpr) :
    (waitingFor ts result).leaves = leavesOfAll ts ++ result.leaves := by
  cases ts <;> rfl

theorem leavesOfAll_append_singleton (ts : List TypeExpr) (t : TypeExpr) :
    leavesOfAll (ts ++ [t]) = leavesOfAll ts ++ t.leaves := by
  rw [leavesOfAll_append]
  simp [leavesOfAll]

end TypeExpr

/-- An overload has the leaves of all slots and of the final return type, in order. -/
theorem leaves_overloadTaking (slots : List Slot) (final : TypeExpr) (n : Nat) :
    TypeExpr.leavesOfAll (overloadTaking slots final n).types
      = TypeExpr.leavesOfAll (signatureTypes slots final) := by
  rw [Overload.types, signatureTypes, TypeExpr.leavesOfAll_append_singleton,
    TypeExpr.leavesOfAll_append_singleton, Overload.slotTypes, overloadTaking,
    TypeExpr.leaves_waitingFor, ← List.append_assoc, ← TypeExpr.leavesOfAll_append,
    map_type_take_append_drop]

theorem refersTo_overload_iff {slots : List Slot} {final : TypeExpr} {o : Overload}
    (h : o ∈ overloadsFrom final [] slots) {v : TypeVar} :
    RefersTo o.types v ↔ RefersTo (signatureTypes slots final) v := by
  obtain ⟨n, -, -, rfl⟩ := mem_overloadsFrom_iff.mp h
  rw [refersTo_iff, refersTo_iff, leaves_overloadTaking]

/-! ## Continuations -/

theorem TypeExpr.mem_widths_waitingFor {ts : List TypeExpr} {result : TypeExpr} {k : Nat} :
    k ∈ (waitingFor ts result).widths ↔
      k ∈ widthsOfAll ts ∨ k ∈ result.widths ∨ 0 < ts.length ∧ k = ts.length := by
  cases ts with
  | nil => simp [waitingFor, widthsOfAll]
  | cons t ts =>
      simp only [waitingFor, widths, List.mem_cons, List.mem_append, List.length_cons,
        Nat.zero_lt_succ, true_and]
      tauto

/-- Besides the continuations in the types it is made from, an overload holds the one that waits
for the slots outstanding. -/
theorem mem_widths_overloadTaking {slots : List Slot} {final : TypeExpr} {n k : Nat} :
    k ∈ TypeExpr.widthsOfAll (overloadTaking slots final n).types ↔
      k ∈ TypeExpr.widthsOfAll (signatureTypes slots final)
        ∨ n < slots.length ∧ k = slots.length - n := by
  rw [Overload.types, signatureTypes, Overload.slotTypes, ← map_type_take_append_drop slots n]
  simp only [TypeExpr.widthsOfAll_eq_flatMap, List.flatMap_append, List.flatMap_singleton,
    List.mem_append, overloadTaking, TypeExpr.mem_widths_waitingFor, List.length_map,
    List.length_drop, Nat.sub_pos_iff_lt]
  tauto

/-! ## Interfaces -/

/-- Exactly one of the interfaces is for continuations of this width, and it has as many
parameters as a reference to it has arguments. -/
def Resolves (definitions : List ContinuationDefinition) (width : Nat) : Prop :=
  ∃ d, (definitions.filter fun d => d.arity = width) = [d] ∧ d.typeParams.length = width + 1

/-- What the definition of an interface consists of. -/
structure IsInterface (d : ContinuationDefinition) (slots : List Slot) : Prop where
  pos : 0 < d.arity
  le : d.arity ≤ maxContinuationWidth
  typeParams : d.typeParams = TypeVar.slotVars.take d.arity ++ [.result]
  signatures : d.signatures = overloadsFrom (.var .result) [] slots
  types : slots.map Slot.type = (TypeVar.slotVars.take d.arity).map .var

namespace IsInterface

variable {d : ContinuationDefinition} {slots : List Slot} (h : IsInterface d slots)

include h

theorem length_vars : (TypeVar.slotVars.take d.arity).length = d.arity := by
  rw [List.length_take, Nat.min_eq_left (Nat.le_trans h.le maxContinuationWidth_le)]

theorem length_slots : slots.length = d.arity := by
  rw [← List.length_map Slot.type, h.types, List.length_map, h.length_vars]

theorem length_typeParams : d.typeParams.length = d.arity + 1 := by
  rw [h.typeParams, List.length_append, h.length_vars, List.length_singleton]

theorem refersTo_iff_mem_typeParams {v : TypeVar} :
    RefersTo (signatureTypes slots (.var .result)) v ↔ v ∈ d.typeParams := by
  rw [refersTo_iff, signatureTypes, TypeExpr.leavesOfAll_append_singleton, h.types, h.typeParams,
    TypeExpr.leavesOfAll_eq_flatMap, List.flatMap_map]
  simp [TypeExpr.leaves]

theorem widths_eq_nil : TypeExpr.widthsOfAll (signatureTypes slots (.var .result)) = [] := by
  rw [signatureTypes, h.types, TypeExpr.widthsOfAll_eq_flatMap, List.flatMap_eq_nil_iff]
  intro t ht
  rcases List.mem_append.mp ht with ht | ht
  · obtain ⟨v, -, rfl⟩ := List.mem_map.mp ht
    rfl
  · rw [List.mem_singleton.mp ht]
    rfl

end IsInterface

theorem isInterface_of_ok {width : Nat} {d : ContinuationDefinition}
    (h : continuationDefinition width = .ok d) : d.arity = width ∧ ∃ slots, IsInterface d slots := by
  have hpos : 0 < width := by
    rw [Nat.pos_iff_ne_zero]
    rintro rfl
    cases h
  have hle : width ≤ maxContinuationWidth := by
    refine Nat.le_of_not_lt fun hlt => ?_
    rw [continuationDefinition, if_neg (by omega), if_pos hlt] at h
    cases h
  obtain ⟨slots, hd, htypes⟩ := continuationDefinition_ok hpos hle
  obtain rfl := Except.ok.inj (hd.symm.trans h)
  exact ⟨rfl, slots, hpos, hle, rfl, rfl, htypes⟩

section Definitions

variable {definitions : List ContinuationDefinition} (h : continuationDefinitions = .ok definitions)

include h

theorem map_arity_definitions :
    definitions.map ContinuationDefinition.arity = List.range' 1 maxContinuationWidth := by
  have harities := map_eq_map_of_mapM (q := id) h fun width d hd => (isInterface_of_ok hd).1
  rwa [List.map_id] at harities

theorem isInterface_of_mem {d : ContinuationDefinition} (hd : d ∈ definitions) :
    ∃ slots, IsInterface d slots := by
  obtain ⟨width, -, hwidth⟩ := exists_of_mem_mapM h hd
  exact (isInterface_of_ok hwidth).2

theorem resolves_of_le {width : Nat} (hpos : 0 < width) (hle : width ≤ maxContinuationWidth) :
    Resolves definitions width := by
  have hmem : width ∈ List.range' 1 maxContinuationWidth := List.mem_range'_1.mpr (by omega)
  have hnodup : (List.range' 1 maxContinuationWidth).Nodup := List.nodup_range'
  have hcount : (definitions.filter fun d => d.arity = width).length = 1 :=
    calc (definitions.filter fun d => d.arity = width).length
      _ = definitions.countP fun d => d.arity = width := List.countP_eq_length_filter.symm
      _ = (definitions.map ContinuationDefinition.arity).count width := by
          rw [List.count_eq_countP, List.countP_map]
          rfl
      _ = 1 := by rw [map_arity_definitions h, hnodup.count, if_pos hmem]
  obtain ⟨d, hfilter⟩ := List.length_eq_one_iff.mp hcount
  obtain ⟨hd, harity⟩ := List.mem_filter.mp (hfilter ▸ List.mem_singleton_self d)
  obtain ⟨slots, hinterface⟩ := isInterface_of_mem h hd
  refine ⟨d, hfilter, ?_⟩
  rw [hinterface.length_typeParams, of_decide_eq_true harity]

/-- The width that an overload adds to those of its types has an interface. -/
theorem resolves_of_overload {slots : List Slot} {final : TypeExpr} {o : Overload}
    (hlength : slots.length ≤ maxContinuationWidth + 1) (ho : o ∈ overloadsFrom final [] slots)
    {k : Nat} (hk : k ∈ TypeExpr.widthsOfAll o.types) :
    k ∈ TypeExpr.widthsOfAll (signatureTypes slots final)
      ∨ k < slots.length ∧ Resolves definitions k := by
  obtain ⟨n, hpos, hle, rfl⟩ := mem_overloadsFrom_iff.mp ho
  rcases mem_widths_overloadTaking.mp hk with hk | ⟨hn, rfl⟩
  · exact Or.inl hk
  · exact Or.inr ⟨by omega, resolves_of_le h (by omega) (by omega)⟩

end Definitions

/-- **Signatures are closed and can be resolved.** Each overload of a slot list that can be
curried refers to just the variables of all slots and the final return type. For a function
these are its generic parameters, which are distinct and end with the result variable. Every
continuation in an overload of a function or in a signature of an interface has a width for
which there is exactly one interface, with one parameter more than the width; inside an
interface it is smaller than the interface, and all variables are parameters of it. -/
theorem signatures_closed :
    ∃ definitions, continuationDefinitions = .ok definitions
      ∧ (∀ slots final overloads, curry slots final = .ok overloads → ∀ o ∈ overloads,
          (∀ v, RefersTo o.types v ↔ RefersTo (signatureTypes slots final) v)
            ∧ ∀ k ∈ TypeExpr.widthsOfAll o.types,
                k ∈ TypeExpr.widthsOfAll (signatureTypes slots final) ∨ Resolves definitions k)
      ∧ (∀ (f : FunctionRecord) c, f.curried = .ok c →
          c.plan.typeParams.Nodup ∧ c.plan.typeParams.getLast? = some .z
            ∧ ∀ o ∈ c.overloads, (∀ v, RefersTo o.types v ↔ v ∈ c.plan.typeParams)
                ∧ ∀ k ∈ TypeExpr.widthsOfAll o.types, Resolves definitions k)
      ∧ ∀ d ∈ definitions, ∀ o ∈ d.signatures,
          (∀ v, RefersTo o.types v → v ∈ d.typeParams)
            ∧ ∀ k ∈ TypeExpr.widthsOfAll o.types, k < d.arity ∧ Resolves definitions k := by
  obtain ⟨definitions, hdefinitions⟩ := continuationDefinitions_ok
  refine ⟨definitions, hdefinitions, ?_, ?_, ?_⟩
  · intro slots final overloads hcurry o ho
    obtain ⟨-, hlength, rfl⟩ := curry_eq_ok_iff.mp hcurry
    refine ⟨fun v => refersTo_overload_iff ho, fun k hk => ?_⟩
    exact (resolves_of_overload hdefinitions hlength ho hk).imp_right And.right
  · intro f c hcurried
    obtain ⟨hplan, hcurry, -⟩ := FunctionRecord.curried_eq_ok_iff.mp hcurried
    obtain ⟨-, hlength, hoverloads⟩ := curry_eq_ok_iff.mp hcurry
    have hbound := FunctionRecord.plan_bound hplan
    refine ⟨hbound.nodup_typeParams, by rw [hbound.typeParams_eq]; simp [TypeVar.result], ?_⟩
    intro o ho
    rw [hoverloads] at ho
    refine ⟨fun v => ?_, fun k hk => ?_⟩
    · rw [refersTo_overload_iff ho, refersTo_iff, hbound.mem_typeParams_iff, signatureTypes,
        TypeExpr.leavesOfAll_append_singleton]
    · have hflat : TypeExpr.widthsOfAll (signatureTypes c.plan.slots c.plan.returnType) = [] :=
        hbound.widths_eq_nil
      have hadded := resolves_of_overload hdefinitions hlength ho hk
      rw [hflat] at hadded
      exact (hadded.resolve_left List.not_mem_nil).2
  · intro d hd o ho
    obtain ⟨slots, hinterface⟩ := isInterface_of_mem hdefinitions hd
    rw [hinterface.signatures] at ho
    have hlength : slots.length ≤ maxContinuationWidth + 1 := by
      rw [hinterface.length_slots]
      exact Nat.le_succ_of_le hinterface.le
    refine ⟨fun v hv => ?_, fun k hk => ?_⟩
    · exact hinterface.refersTo_iff_mem_typeParams.mp ((refersTo_overload_iff ho).mp hv)
    · have hadded := resolves_of_overload hdefinitions hlength ho hk
      rw [hinterface.widths_eq_nil] at hadded
      rw [← hinterface.length_slots]
      exact hadded.resolve_left List.not_mem_nil

end CurriedTypings
