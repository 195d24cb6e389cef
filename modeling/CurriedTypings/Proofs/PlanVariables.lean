import CurriedTypings.Proofs.PlanOutcome

/-!
# The variables of a plan

The generic parameters of a plan come from the variables its slots are bound to, what
is printed from the types of the slots and from the return type. That the two agree
rests on what a single slot is like: its type holds the variable it is bound to and no
other but that of the result (`Slot.Bound`). Planning builds such slots only
(`plan_bound`), so the parameters of a plan are the distinct variables of its slots
with the result variable last (`typeParams_eq`), and they are just the variables that
its types hold (`mem_typeParams_iff`).
-/

namespace CurriedTypings

namespace Slot

/-- The type of a slot holds the variable the slot is bound to, and otherwise at most the
result variable. It holds no continuations. -/
structure Bound (s : Slot) : Prop where
  slotVar : s.generic ∈ TypeVar.slotVars
  holds : s.generic ∈ s.type.leaves
  only : ∀ v ∈ s.type.leaves, v = s.generic ∨ v = .result
  flat : s.type.widths = []

variable {v : TypeVar}

theorem bound_iteratee (k : CallbackArity) (h : v ∈ TypeVar.slotVars) : (iteratee k v).Bound where
  slotVar := h
  holds := by simp [iteratee, TypeExpr.leaves]
  only := by simp [iteratee, TypeExpr.leaves]
  flat := rfl

/-- The other slots have the variable itself or a collection over it as their type. -/
theorem bound_of_leaves {s : Slot} (h : s.generic ∈ TypeVar.slotVars)
    (hleaves : s.type.leaves = [s.generic]) (hflat : s.type.widths = []) : s.Bound where
  slotVar := h
  holds := by simp [hleaves]
  only := fun v hv => Or.inl (List.mem_singleton.mp (hleaves ▸ hv))
  flat := hflat

theorem bound_extraArg (position : Nat) (h : v ∈ TypeVar.slotVars) : (extraArg position v).Bound :=
  bound_of_leaves h rfl rfl

theorem bound_collection (h : v ∈ TypeVar.slotVars) : (collection v).Bound :=
  bound_of_leaves h rfl rfl

theorem bound_positional (position : Nat) (h : v ∈ TypeVar.slotVars) :
    (positional position v).Bound :=
  bound_of_leaves h rfl rfl

end Slot

/-- The slots of a plan are bound, and its return type is a shape of the result variable. -/
structure Plan.Bound (p : Plan) : Prop where
  slots : ∀ s ∈ p.slots, s.Bound
  returns : ∃ shape : ReturnShape, p.returnType = shape.type
  result : p.result = .result

namespace FunctionRecord

variable {f : FunctionRecord}

theorem bound_slotAt (f : FunctionRecord) (position : Nat) {v : TypeVar}
    (h : v ∈ TypeVar.slotVars) : (f.slotAt position v).Bound := by
  unfold slotAt
  split
  · exact Slot.bound_positional position h
  · split
    · exact Slot.bound_iteratee _ h
    · split
      · exact Slot.bound_collection h
      · exact Slot.bound_extraArg position h

theorem planned_bound (f : FunctionRecord) : f.planned.Bound where
  slots := by
    intro s hs
    obtain ⟨position, v, hv, rfl⟩ := exists_of_mem_slotsFrom hs
    exact f.bound_slotAt position hv
  returns := ⟨f.finalShape, rfl⟩
  result := rfl

theorem plan_bound {p : Plan} (h : f.plan = .ok p) : p.Bound := by
  obtain ⟨-, rfl⟩ := plan_eq_ok_iff.mp h
  exact f.planned_bound

theorem plan_name {p : Plan} (h : f.plan = .ok p) : p.name = f.name := by
  obtain ⟨-, rfl⟩ := plan_eq_ok_iff.mp h
  rfl

theorem curried_eq_ok_iff {c : CurriedFunction} : f.curried = .ok c ↔
    f.plan = .ok c.plan ∧ curry c.plan.slots c.plan.returnType = .ok c.overloads
      ∧ c.aliases = f.aliasBindings := by
  rw [curried, bind_eq_ok_iff]
  constructor
  · rintro ⟨p, hp, h⟩
    obtain ⟨overloads, hoverloads, h⟩ := bind_eq_ok_iff.mp h
    obtain rfl := Except.ok.inj h
    exact ⟨hp, hoverloads, rfl⟩
  · rintro ⟨hp, hoverloads, haliases⟩
    refine ⟨c.plan, hp, bind_eq_ok_iff.mpr ⟨c.overloads, hoverloads, ?_⟩⟩
    rw [← haliases]
    rfl

end FunctionRecord

namespace Plan

theorem leaves_returnType (shape : ReturnShape) : shape.type.leaves = [.result] := by
  cases shape <;> rfl

theorem widths_returnType (shape : ReturnShape) : shape.type.widths = [] := by
  cases shape <;> rfl

namespace Bound

variable {p : Plan} (h : p.Bound)

include h

theorem result_not_mem_generics : .result ∉ p.slots.map Slot.generic := by
  intro hmem
  obtain ⟨s, hs, hgeneric⟩ := List.mem_map.mp hmem
  exact TypeVar.result_not_mem_slotVars (hgeneric ▸ (h.slots s hs).slotVar)

theorem result_not_mem_distinct : .result ∉ distinct (p.slots.map Slot.generic) :=
  fun hmem => h.result_not_mem_generics (mem_distinct.mp hmem)

theorem typeParams_eq : p.typeParams = distinct (p.slots.map Slot.generic) ++ [.result] := by
  rw [typeParams, genericParams, h.result, addNew_append, addNew_nil_left, addNew_cons,
    insertNew_of_not_mem h.result_not_mem_distinct, addNew_nil]

theorem nodup_typeParams : p.typeParams.Nodup := by
  rw [h.typeParams_eq]
  exact nodup_append_singleton.mpr ⟨nodup_distinct _, h.result_not_mem_distinct⟩

/-- The generic parameters of a plan are the variables its types hold. -/
theorem mem_typeParams_iff {v : TypeVar} : v ∈ p.typeParams ↔
    v ∈ TypeExpr.leavesOfAll (p.slots.map Slot.type) ++ p.returnType.leaves := by
  obtain ⟨shape, hshape⟩ := h.returns
  rw [h.typeParams_eq, hshape, leaves_returnType, List.mem_append, List.mem_append, mem_distinct,
    TypeExpr.leavesOfAll_eq_flatMap, List.flatMap_map, List.mem_flatMap, List.mem_map]
  constructor
  · rintro (⟨s, hs, rfl⟩ | hresult)
    · exact Or.inl ⟨s, hs, (h.slots s hs).holds⟩
    · exact Or.inr hresult
  · rintro (⟨s, hs, hv⟩ | hresult)
    · rcases (h.slots s hs).only v hv with rfl | rfl
      · exact Or.inl ⟨s, hs, rfl⟩
      · exact Or.inr (List.mem_singleton_self _)
    · exact Or.inr hresult

/-- Nothing in a plan is a partial application. -/
theorem widths_eq_nil : TypeExpr.widthsOfAll (p.slots.map Slot.type ++ [p.returnType]) = [] := by
  obtain ⟨shape, hshape⟩ := h.returns
  rw [TypeExpr.widthsOfAll_eq_flatMap, List.flatMap_eq_nil_iff]
  intro t ht
  rcases List.mem_append.mp ht with ht | ht
  · obtain ⟨s, hs, rfl⟩ := List.mem_map.mp ht
    exact (h.slots s hs).flat
  · rw [List.mem_singleton.mp ht, hshape, widths_returnType]

end Bound

end Plan

end CurriedTypings
