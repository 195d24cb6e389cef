import CurriedTypings.Currying
import CurriedTypings.Proofs.Overloads
import CurriedTypings.Proofs.PlanLayout

/-!
# When a function has a signature

A record is `Plannable` if its callback, if it has one, is supported and has something
to be applied to, if it collects no trailing arguments, and if there are enough
variables for its arguments. Anything else is a `Defect`, of which there are four;
where several things are wrong, the first of them in this order counts.

A record is either plannable or has a defect, and planning does what this suggests
(`plan_of_plannable`, `plan_of_defect`). Since there is one variable more than a
continuation may wait for arguments, currying a plan never fails, so that the defects
are all that can go wrong with a record (`curried_eq_error_iff`).
-/

namespace CurriedTypings

namespace FunctionRecord

/-- Any callback is supported and has something to be applied to. -/
def CallbackFits (f : FunctionRecord) : Prop :=
  ∀ declared, f.iterateeArity = some declared →
    2 ≤ f.arity ∧ ∃ k, CallbackArity.ofDeclared declared = some k

/-- Nothing keeps a record from being planned. -/
structure Plannable (f : FunctionRecord) : Prop where
  callback : f.CallbackFits
  plain : f.spreadStart = none
  fewEnough : f.arity ≤ TypeVar.slotVars.length

/-- What is wrong with a record that cannot be planned. -/
inductive Defect (f : FunctionRecord) : SignatureError → Prop
  | withoutData {declared : Nat} (callback : f.iterateeArity = some declared)
      (few : f.arity < 2) : Defect f (.iterateeWithoutData f.name f.arity)
  | unsupported {declared : Nat} (callback : f.iterateeArity = some declared)
      (enough : 2 ≤ f.arity) (unknown : CallbackArity.ofDeclared declared = none) :
      Defect f (.unsupportedIterateeArity f.name declared)
  | spread {start : Nat} (callback : f.CallbackFits) (collects : f.spreadStart = some start) :
      Defect f (.spreadNotSupported f.name start)
  | exhausted (callback : f.CallbackFits) (plain : f.spreadStart = none)
      (many : TypeVar.slotVars.length < f.arity) :
      Defect f (.alphabetExhausted f.name f.arity)

variable {f : FunctionRecord}

theorem callbackFits_or_defect (f : FunctionRecord) : f.CallbackFits ∨ ∃ e, f.Defect e := by
  cases hcallback : f.iterateeArity with
  | none => exact Or.inl fun declared h => nomatch hcallback.symm.trans h
  | some declared =>
      by_cases hfew : f.arity < 2
      · exact Or.inr ⟨_, .withoutData hcallback hfew⟩
      · cases hknown : CallbackArity.ofDeclared declared with
        | none => exact Or.inr ⟨_, .unsupported hcallback (by omega) hknown⟩
        | some k =>
            refine Or.inl fun declared' h => ?_
            obtain rfl := Option.some.inj (hcallback.symm.trans h)
            exact ⟨by omega, k, hknown⟩

theorem plannable_or_defect (f : FunctionRecord) : f.Plannable ∨ ∃ e, f.Defect e := by
  rcases f.callbackFits_or_defect with hfits | hdefect
  · cases hspread : f.spreadStart with
    | some start => exact Or.inr ⟨_, .spread hfits hspread⟩
    | none =>
        by_cases hmany : TypeVar.slotVars.length < f.arity
        · exact Or.inr ⟨_, .exhausted hfits hspread hmany⟩
        · exact Or.inl ⟨hfits, hspread, by omega⟩
  · exact Or.inr hdefect

/-! ## Lack of variables -/

/-- The first slot without a variable is one of those the record declares, so the error names
the number of arguments. -/
theorem bindVar_error {index : Nat} (h : TypeVar.slotVars.length ≤ index)
    (hindex : index < f.arity) : f.bindVar index = .error (.alphabetExhausted f.name f.arity) := by
  rw [bindVar, TypeVar.forSlot, List.getElem?_eq_none h, Nat.max_eq_left (by omega)]

theorem bindSlots_error {slot : Nat → TypeVar → Slot} : ∀ {count index : Nat},
    index ≤ TypeVar.slotVars.length → TypeVar.slotVars.length < index + count →
      index + count ≤ f.arity →
        f.bindSlots slot count index = .error (.alphabetExhausted f.name f.arity)
  | 0, index, hindex, hmany, _ => by omega
  | count + 1, index, hindex, hmany, harity => by
      rw [bindSlots]
      by_cases hlast : index = TypeVar.slotVars.length
      · rw [bindVar_error (by omega) (by omega), bind_error]
      · have hnext : index < TypeVar.slotVars.length := by omega
        rw [bindVar_ok hnext, bind_ok, bindSlots_error (by omega) (by omega) (by omega), bind_error]

/-! ## Plans -/

theorem rejectSpread_none (h : f.spreadStart = none) : f.rejectSpread = .ok () := by
  rw [rejectSpread, h]

theorem rejectSpread_some {start : Nat} (h : f.spreadStart = some start) :
    f.rejectSpread = .error (.spreadNotSupported f.name start) := by
  rw [rejectSpread, h]

/-- If only one variable is missing, it is the collection that goes without. -/
theorem iterateeSlots_error (k : CallbackArity) (hmany : TypeVar.slotVars.length < f.arity) :
    f.iterateeSlots k = .error (.alphabetExhausted f.name f.arity) := by
  have hsize : TypeVar.slotVars.length = 4 := rfl
  have hfirst : 0 < TypeVar.slotVars.length := by decide
  rw [iterateeSlots, bindVar_ok hfirst, bind_ok]
  by_cases hextra : 1 + (f.arity - 2) ≤ TypeVar.slotVars.length
  · rw [bindSlots_ok hextra, bind_ok, bindVar_error (by omega) (by omega), bind_error]
  · rw [bindSlots_error (by omega) (by omega) (by omega), bind_error]

theorem planIteratee_eq {declared : Nat} {k : CallbackArity} (hdata : 2 ≤ f.arity)
    (hk : CallbackArity.ofDeclared declared = some k) : f.planIteratee declared = (do
      f.rejectSpread
      let slots ← f.iterateeSlots k
      return ⟨f.name, slots, (f.returnShape.getD k.returnShape).type, .result⟩) := by
  rw [planIteratee, if_neg (by omega), hk]

theorem plan_of_callback {declared : Nat} (h : f.iterateeArity = some declared) :
    f.plan = f.planIteratee declared >>= f.checkCount := by
  rw [plan, h]

theorem plan_of_no_callback (h : f.iterateeArity = none) :
    f.plan = f.planFlat >>= f.checkCount := by
  rw [plan, h]

theorem checkCount_ok {p : Plan} (h : p.slots.length = f.arity) : f.checkCount p = .ok p := by
  rw [checkCount, if_pos h]

theorem plan_of_plannable (h : f.Plannable) : f.plan = .ok f.planned := by
  obtain ⟨hfits, hspread, hle⟩ := h
  have hcount : f.checkCount f.planned = .ok f.planned := checkCount_ok (length_layout hle)
  cases hcallback : f.iterateeArity with
  | some declared =>
      obtain ⟨hdata, k, hk⟩ := hfits declared hcallback
      have hsupported : f.callback? = some k := (callback?_of_some hcallback).trans hk
      have hshape : f.finalShape = f.returnShape.getD k.returnShape := by
        rw [finalShape, hsupported]
        rfl
      rw [plan_of_callback hcallback, planIteratee_eq hdata hk, rejectSpread_none hspread, bind_ok,
        iterateeSlots_ok hsupported hdata hle, bind_ok, ← hshape]
      exact hcount
  | none =>
      have hsupported := callback?_of_none hcallback
      have hshape : f.finalShape = f.returnShape.getD .result := by
        rw [finalShape, hsupported]
        rfl
      rw [plan_of_no_callback hcallback, planFlat, rejectSpread_none hspread, bind_ok,
        bindSlots_ok (by omega), bind_ok, ← hshape, ← slotAt_of_no_callback hsupported]
      exact hcount

/-- A record with a callback that fits, or without one, is planned as far as it collects no
trailing arguments and as there are variables. -/
theorem plan_of_callbackFits_error {e : SignatureError} (hfits : f.CallbackFits)
    (h : f.rejectSpread = .error e ∨ f.rejectSpread = .ok ()
      ∧ (∀ k, f.iterateeSlots k = .error e)
      ∧ f.bindSlots Slot.positional f.arity 0 = .error e) : f.plan = .error e := by
  cases hcallback : f.iterateeArity with
  | some declared =>
      obtain ⟨hdata, k, hk⟩ := hfits declared hcallback
      rw [plan_of_callback hcallback, planIteratee_eq hdata hk]
      rcases h with h | ⟨h, hslots, -⟩
      · rw [h]; rfl
      · rw [h, bind_ok, hslots]; rfl
  | none =>
      rw [plan_of_no_callback hcallback, planFlat]
      rcases h with h | ⟨h, -, hslots⟩
      · rw [h]; rfl
      · rw [h, bind_ok, hslots]; rfl

theorem plan_of_defect {e : SignatureError} (h : f.Defect e) : f.plan = .error e := by
  cases h with
  | withoutData hcallback hfew =>
      rw [plan_of_callback hcallback, planIteratee, if_pos hfew]
      rfl
  | unsupported hcallback henough hunknown =>
      rw [plan_of_callback hcallback, planIteratee, if_neg (by omega), hunknown]
      rfl
  | spread hfits hspread =>
      exact plan_of_callbackFits_error hfits (Or.inl (rejectSpread_some hspread))
  | exhausted hfits hspread hmany =>
      refine plan_of_callbackFits_error hfits (Or.inr ⟨rejectSpread_none hspread, ?_, ?_⟩)
      · exact fun k => iterateeSlots_error k hmany
      · exact bindSlots_error (Nat.zero_le _) (by omega) (by omega)

theorem Defect.not_plannable {e : SignatureError} (h : f.Defect e) : ¬ f.Plannable :=
  fun hplannable => nomatch (plan_of_plannable hplannable).symm.trans (plan_of_defect h)

theorem plan_eq_ok_iff {p : Plan} : f.plan = .ok p ↔ f.Plannable ∧ p = f.planned := by
  constructor
  · intro h
    rcases f.plannable_or_defect with hplannable | ⟨e, hdefect⟩
    · exact ⟨hplannable, Except.ok.inj (h.symm.trans (plan_of_plannable hplannable))⟩
    · exact nomatch h.symm.trans (plan_of_defect hdefect)
  · rintro ⟨hplannable, rfl⟩
    exact plan_of_plannable hplannable

theorem plan_eq_error_iff {e : SignatureError} : f.plan = .error e ↔ f.Defect e := by
  refine ⟨fun h => ?_, plan_of_defect⟩
  rcases f.plannable_or_defect with hplannable | ⟨e', hdefect⟩
  · exact nomatch h.symm.trans (plan_of_plannable hplannable)
  · have heq : e = e' := Except.error.inj (h.symm.trans (plan_of_defect hdefect))
    rwa [heq]

/-! ## Currying a plan -/

/-- A plan that has its variables leaves no more slots outstanding than a continuation takes. -/
theorem slotVars_length_le : TypeVar.slotVars.length ≤ maxContinuationWidth + 1 := by decide

theorem curried_of_plannable (hpos : 1 ≤ f.arity) (h : f.Plannable) :
    ∃ c, f.curried = .ok c := by
  have hlength := length_layout h.fewEnough
  have hne : f.layout ≠ [] := by
    intro hnil
    rw [hnil, List.length_nil] at hlength
    omega
  have hwidth : f.layout.length ≤ maxContinuationWidth + 1 := by
    rw [hlength]
    exact Nat.le_trans h.fewEnough slotVars_length_le
  have hcurry : curry f.planned.slots f.planned.returnType
      = .ok (overloadsFrom f.planned.returnType [] f.planned.slots) :=
    curry_eq_ok_iff.mpr ⟨hne, hwidth, rfl⟩
  exact ⟨_, by rw [curried, plan_of_plannable h, bind_ok, hcurry]; rfl⟩

theorem curried_of_defect {e : SignatureError} (h : f.Defect e) : f.curried = .error e := by
  rw [curried, plan_of_defect h, bind_error]

/-- Currying a record fails exactly with what is wrong with it. -/
theorem curried_eq_error_iff (hpos : 1 ≤ f.arity) {e : SignatureError} :
    f.curried = .error e ↔ f.Defect e := by
  refine ⟨fun h => ?_, curried_of_defect⟩
  cases hplan : f.plan with
  | error e' =>
      have heq : e' = e := by
        rw [curried, hplan, bind_error] at h
        exact Except.error.inj h
      exact plan_eq_error_iff.mp (heq ▸ hplan)
  | ok p =>
      obtain ⟨c, hc⟩ := curried_of_plannable hpos (plan_eq_ok_iff.mp hplan).1
      exact nomatch h.symm.trans hc

end FunctionRecord

end CurriedTypings
