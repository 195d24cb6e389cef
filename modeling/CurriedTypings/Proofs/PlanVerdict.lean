import CurriedTypings.Proofs.PlanVariables

/-!
# The verdict of planning

Which records are planned and why the others are refused is said by `Plannable` and
`Defect`; what a plan consists of is said by `Plan.Of`. Here both are spelled out for
every record, so that no arity, callback, spread argument or shape is left open.

The plan of a record is `planned`, whose slots are laid out position by position. That
there are as many slots as the record declares is what planning checks at the end; the
layout has this number from the start, so the check never fails.
-/

namespace CurriedTypings

/-- What the plan of a record consists of. -/
structure Plan.Of (f : FunctionRecord) (p : Plan) : Prop where
  name : p.name = f.name
  count : p.slots.length = f.arity
  /-- Each slot is bound to the variable of its position. -/
  generics : p.slots.map Slot.generic = TypeVar.slotVars.take f.arity
  distinct : (p.slots.map Slot.generic).Nodup
  result : p.result = .result ∧ .result ∉ p.slots.map Slot.generic
  /-- The type of a slot refers to the variable the slot is bound to. -/
  refers : ∀ s ∈ p.slots, s.generic ∈ s.type.vars
  flat : f.iterateeArity = none → p.slots = FunctionRecord.slotsFrom Slot.positional f.arity 0
  callback : ∀ declared, f.iterateeArity = some declared → ∃ k v, k.count = declared
    ∧ p.slots = Slot.iteratee k .a :: FunctionRecord.slotsFrom Slot.extraArg (f.arity - 2) 1
        ++ [Slot.collection v]
  overridden : ∀ shape, f.returnShape = some shape → p.returnType = shape.type
  returns : f.returnShape = none →
    p.returnType = if f.iterateeArity = some 1 then .array (.var .result) else .var .result

namespace FunctionRecord

variable {f : FunctionRecord}

theorem planned_of (h : f.Plannable) : Plan.Of f f.planned := by
  obtain ⟨hfits, -, hle⟩ := h
  have hgenerics : f.planned.slots.map Slot.generic = TypeVar.slotVars.take f.arity :=
    generics_layout hle
  refine {
    name := rfl
    count := length_layout hle
    generics := hgenerics
    distinct := hgenerics ▸ TypeVar.nodup_slotVars.sublist (List.take_sublist ..)
    result := ⟨rfl, f.planned_bound.result_not_mem_generics⟩
    refers := fun s hs => TypeExpr.mem_vars.mpr (f.planned_bound.slots s hs).holds
    flat := ?_
    callback := ?_
    overridden := fun shape hshape => ?_
    returns := fun hshape => ?_ }
  · intro hnone
    rw [planned, layout, slotAt_of_no_callback (callback?_of_none hnone)]
  · intro declared hdeclared
    obtain ⟨hdata, k, hk⟩ := hfits declared hdeclared
    exact ⟨k, _, (CallbackArity.ofDeclared_eq_some_iff.mp hk).symm,
      layout_of_callback ((callback?_of_some hdeclared).trans hk) hdata hle⟩
  · rw [planned, finalShape, hshape]
    rfl
  · cases hcallback : f.iterateeArity with
    | none =>
        rw [planned, finalShape, hshape, callback?_of_none hcallback]
        rfl
    | some declared =>
        obtain ⟨-, k, hk⟩ := hfits declared hcallback
        obtain rfl := CallbackArity.ofDeclared_eq_some_iff.mp hk
        rw [planned, finalShape, hshape, callback?_of_some hcallback, hk]
        cases k <;> rfl

/-- **What planning comes to.** A callback without data for it is refused first, then a callback
that takes neither one nor two arguments, then a spread argument, then a lack of variables, which
is reported with the arity of the record. Any other record has a plan, and this consists of what
`Plan.Of` lists. The number of slots is never found to be wrong. -/
theorem plan_verdict (f : FunctionRecord) :
    (∀ declared, f.iterateeArity = some declared →
        (f.arity < 2 → f.plan = .error (.iterateeWithoutData f.name f.arity))
          ∧ (2 ≤ f.arity → declared ≠ 1 ∧ declared ≠ 2 →
              f.plan = .error (.unsupportedIterateeArity f.name declared)))
      ∧ ((∀ declared, f.iterateeArity = some declared →
            2 ≤ f.arity ∧ (declared = 1 ∨ declared = 2)) →
          (∀ start, f.spreadStart = some start →
              f.plan = .error (.spreadNotSupported f.name start))
            ∧ (f.spreadStart = none → TypeVar.slotVars.length < f.arity →
                f.plan = .error (.alphabetExhausted f.name f.arity))
            ∧ (f.spreadStart = none → f.arity ≤ TypeVar.slotVars.length → ∃ p, f.plan = .ok p))
      ∧ (∀ p, f.plan = .ok p → Plan.Of f p)
      ∧ ∀ function arity count, f.plan ≠ .error (.parameterCountMismatch function arity count) := by
  refine ⟨fun declared hdeclared => ⟨fun hfew => ?_, fun hdata hunknown => ?_⟩, fun hknown => ?_,
    ?_, ?_⟩
  · exact plan_of_defect (.withoutData hdeclared hfew)
  · have hnone := CallbackArity.ofDeclared_eq_none_iff.mpr hunknown
    exact plan_of_defect (.unsupported hdeclared hdata hnone)
  · have hfits : f.CallbackFits := fun declared hdeclared =>
      (hknown declared hdeclared).imp_right CallbackArity.exists_ofDeclared_iff.mpr
    refine ⟨fun start hstart => ?_, fun hplain hmany => ?_, fun hplain hle => ?_⟩
    · exact plan_of_defect (.spread hfits hstart)
    · exact plan_of_defect (.exhausted hfits hplain hmany)
    · exact ⟨_, plan_of_plannable ⟨hfits, hplain, hle⟩⟩
  · intro p hp
    obtain ⟨hplannable, rfl⟩ := plan_eq_ok_iff.mp hp
    exact planned_of hplannable
  · intro function arity count hmismatch
    cases plan_eq_error_iff.mp hmismatch

end FunctionRecord

end CurriedTypings
