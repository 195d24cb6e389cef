import CurriedTypings.Proofs.ClosedSignatures

/-!
# The overloads, one by one

Currying refuses a slot list only for its length. Otherwise the overloads are those of
`overloadTaking`, in the order of the number of their arguments, and the headline theorem
`curry_verdict` spells out what each of them takes and returns.

Whether a call is complete is told from its return type and not from the number of its
arguments. A call that leaves slots outstanding returns a continuation, so it is never
taken for complete; the complete call returns the final type, and is taken for
incomplete if this type is itself a continuation (`isComplete_overloadTaking`). Final
types of plans and interfaces are none (`isComplete_verdict`).
-/

namespace CurriedTypings

/-- **What currying gives.** An empty slot list and one that leaves more slots outstanding than a
continuation may wait for are refused, and nothing else is. The other slot lists have one
overload for each slot. In order, they take the first slot, the first two, and so on, unchanged;
the last returns the final type and each of the others a continuation over the types of the
slots it does not take. So a later overload takes more arguments than an earlier one, each
number of arguments is taken by exactly one, and what an overload takes and what its
continuation waits for are together the types of all slots. -/
theorem curry_verdict (slots : List Slot) (final : TypeExpr) :
    (curry slots final = .error .emptyParameterList ↔ slots = [])
      ∧ (∀ n, curry slots final = .error (.continuationTooWide n) ↔
          maxContinuationWidth + 1 < slots.length ∧ n = slots.length - 1)
      ∧ (slots ≠ [] → slots.length ≤ maxContinuationWidth + 1 →
          ∃ overloads, curry slots final = .ok overloads)
      ∧ ∀ overloads, curry slots final = .ok overloads →
          overloads.length = slots.length
          ∧ (∀ i (hi : i < overloads.length), overloads[i].slots = slots.take (i + 1)
              ∧ (i + 1 = slots.length → overloads[i].returnType = final)
              ∧ (i + 1 < slots.length → overloads[i].returnType
                  = .continuation ((slots.drop (i + 1)).map Slot.type) final))
          ∧ overloads.Pairwise (fun o o' => o.slots.length < o'.slots.length)
          ∧ (∀ n, 0 < n → n ≤ slots.length →
              ∃ o, (overloads.filter fun o => o.slots.length = n) = [o])
          ∧ ∀ o ∈ overloads, ∃ remaining, o.returnType = .waitingFor remaining final
              ∧ o.slotTypes ++ remaining = slots.map Slot.type := by
  refine ⟨?_, fun n => ?_, fun hne hle => ?_, fun overloads hcurry => ?_⟩
  · simp [curry_eq_error_iff]
  · simp [curry_eq_error_iff]
  · exact ⟨_, curry_eq_ok_iff.mpr ⟨hne, hle, rfl⟩⟩
  · obtain ⟨-, -, rfl⟩ := curry_eq_ok_iff.mp hcurry
    refine ⟨length_overloadsFrom slots final, fun i hi => ?_, overloadsFrom_increasing slots final,
      fun n hpos hle => ⟨_, filter_overloadsFrom hpos hle final⟩, fun o ho => ?_⟩
    · rw [getElem_overloadsFrom hi]
      refine ⟨rfl, fun hlast => ?_, fun hlt => returnType_overloadTaking_of_lt hlt final⟩
      rw [hlast, returnType_overloadTaking_length]
    · obtain ⟨n, -, -, rfl⟩ := mem_overloadsFrom_iff.mp ho
      exact ⟨_, rfl, map_type_take_append_drop slots n⟩

/-! ## Complete calls -/

theorem isComplete_overloadTaking {slots : List Slot} {n : Nat} (hle : n ≤ slots.length)
    (final : TypeExpr) : (overloadTaking slots final n).isComplete = true ↔
      n = slots.length ∧ final.isContinuation = false := by
  rcases Nat.lt_or_eq_of_le hle with hlt | rfl
  · rw [Overload.isComplete, returnType_overloadTaking_of_lt hlt]
    simp [TypeExpr.isContinuation, TypeExpr.asContinuation?, Nat.ne_of_lt hlt]
  · simp [Overload.isComplete, returnType_overloadTaking_length]

/-- Just the last of the overloads is taken for a complete call. -/
def LastComplete (overloads : List Overload) : Prop :=
  ∀ i (hi : i < overloads.length), overloads[i].isComplete = true ↔ i + 1 = overloads.length

theorem isComplete_overloadsFrom {slots : List Slot} {final : TypeExpr} {i : Nat}
    (hi : i < (overloadsFrom final [] slots).length) :
    (overloadsFrom final [] slots)[i].isComplete = true ↔
      i + 1 = (overloadsFrom final [] slots).length ∧ final.isContinuation = false := by
  rw [length_overloadsFrom] at hi
  rw [getElem_overloadsFrom, isComplete_overloadTaking hi, length_overloadsFrom]

theorem lastComplete_overloadsFrom_iff {slots : List Slot} (hne : slots ≠ []) {final : TypeExpr} :
    LastComplete (overloadsFrom final [] slots) ↔ final.isContinuation = false := by
  constructor
  · intro h
    have hpos := List.length_pos_of_ne_nil hne
    have hlast : slots.length - 1 < (overloadsFrom final [] slots).length := by
      rw [length_overloadsFrom]
      omega
    have hcomplete := (h _ hlast).mpr (by rw [length_overloadsFrom]; omega)
    exact (isComplete_overloadsFrom hlast).mp hcomplete |>.2
  · intro hfinal i hi
    rw [isComplete_overloadsFrom hi, hfinal, and_iff_left rfl]

/-- **Which calls are taken for complete.** Of the overloads of a slot list, the last is taken for
a complete call unless the final return type is a continuation, and no other ever is. So the
answer is right for all of them exactly if the final type is no continuation. This is so for
every function that is planned and for every interface. -/
theorem isComplete_verdict (slots : List Slot) (final : TypeExpr) :
    (∀ overloads, curry slots final = .ok overloads →
        (∀ i (hi : i < overloads.length), overloads[i].isComplete = true ↔
            i + 1 = overloads.length ∧ final.isContinuation = false)
          ∧ (LastComplete overloads ↔ final.isContinuation = false))
      ∧ (∀ (f : FunctionRecord) c, f.curried = .ok c → LastComplete c.overloads)
      ∧ ∀ width d, continuationDefinition width = .ok d → LastComplete d.signatures := by
  refine ⟨fun overloads hcurry => ?_, fun f c hcurried => ?_, fun width d hd => ?_⟩
  · obtain ⟨hne, -, rfl⟩ := curry_eq_ok_iff.mp hcurry
    exact ⟨fun i hi => isComplete_overloadsFrom hi, lastComplete_overloadsFrom_iff hne⟩
  · obtain ⟨hplan, hcurry, -⟩ := FunctionRecord.curried_eq_ok_iff.mp hcurried
    obtain ⟨hne, -, hoverloads⟩ := curry_eq_ok_iff.mp hcurry
    obtain ⟨shape, hshape⟩ := (FunctionRecord.plan_bound hplan).returns
    rw [hoverloads, lastComplete_overloadsFrom_iff hne, hshape]
    cases shape <;> rfl
  · obtain ⟨-, slots, hinterface⟩ := isInterface_of_ok hd
    have hne : slots ≠ [] := by
      rw [← List.length_pos_iff, hinterface.length_slots]
      exact hinterface.pos
    rw [hinterface.signatures, lastComplete_overloadsFrom_iff hne]
    rfl

/-- A function of two parameters that returns a function still waiting for an argument: the call
with both parameters is not taken for complete. -/
theorem curry_waiting_final :
    ∃ first last, curry [.positional 1 .a, .positional 2 .b] (.continuation [.var .c] (.var .z))
        = .ok [first, last]
      ∧ last.slots = [.positional 1 .a, .positional 2 .b]
      ∧ last.returnType = .continuation [.var .c] (.var .z)
      ∧ first.isComplete = false ∧ last.isComplete = false ∧ ¬ LastComplete [first, last] :=
  ⟨_, _, rfl, rfl, rfl, rfl, rfl, fun h => nomatch (h 1 (by decide)).mpr rfl⟩

end CurriedTypings
