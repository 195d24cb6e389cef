import CurriedTypings.Plan
import CurriedTypings.Proofs.Traversal

/-!
# The layout of a plan

Planning binds one slot after the other and goes about it in two ways, depending on
whether there is a callback. What it arrives at can be said at once: the slot at a
position is bound to the variable of this position, and which slot it is follows from
the position alone (`slotAt`). The plan of a record with a supported callback, or with
none, is then `planned`, as long as there are variables (`iterateeSlots_ok`,
`bindSlots_ok`).
-/

namespace CurriedTypings

namespace FunctionRecord

/-- The callback of a record, if it has one that is supported. -/
def callback? (f : FunctionRecord) : Option CallbackArity :=
  f.iterateeArity.bind CallbackArity.ofDeclared

/-- The slot at a position, counted from one. A callback comes first and the collection it works
on last. -/
def slotAt (f : FunctionRecord) (position : Nat) (v : TypeVar) : Slot :=
  match f.callback? with
  | none => .positional position v
  | some k =>
    if position = 1 then .iteratee k v
    else if position = f.arity then .collection v
    else .extraArg position v

/-- `count` slots in a row, bound to the variables from `index` on. -/
def slotsFrom (slot : Nat → TypeVar → Slot) (count index : Nat) : List Slot :=
  List.zipWith slot (List.range' (index + 1) count) (TypeVar.slotVars.drop index)

/-- The slots of a record, as far as there are variables. -/
def layout (f : FunctionRecord) : List Slot := slotsFrom f.slotAt f.arity 0

/-- The shape of what a function returns: the one it is given, or else that of its callback. -/
def finalShape (f : FunctionRecord) : ReturnShape :=
  f.returnShape.getD ((f.callback?.map CallbackArity.returnShape).getD .result)

def planned (f : FunctionRecord) : Plan := ⟨f.name, f.layout, f.finalShape.type, .result⟩

/-! ## Slots in a row -/

variable {f : FunctionRecord} {slot slot' : Nat → TypeVar → Slot} {count index : Nat}

theorem slotsFrom_succ (h : index < TypeVar.slotVars.length) : slotsFrom slot (count + 1) index
    = slot (index + 1) TypeVar.slotVars[index] :: slotsFrom slot count (index + 1) := by
  rw [slotsFrom, slotsFrom, List.range'_succ, List.drop_eq_getElem_cons h, List.zipWith_cons_cons]

theorem length_slotsFrom (h : index + count ≤ TypeVar.slotVars.length) :
    (slotsFrom slot count index).length = count := by
  rw [slotsFrom, List.length_zipWith, List.length_range', List.length_drop]
  omega

theorem slotsFrom_concat : ∀ {count index : Nat} (h : index + count < TypeVar.slotVars.length),
    slotsFrom slot (count + 1) index = slotsFrom slot count index
      ++ [slot (index + count + 1) TypeVar.slotVars[index + count]]
  | 0, index, h => slotsFrom_succ h
  | count + 1, index, h => by
      have hindex : index + 1 + count = index + (count + 1) := by omega
      have hrest : slotsFrom slot (count + 1) (index + 1) = slotsFrom slot count (index + 1)
          ++ [slot (index + 1 + count + 1) TypeVar.slotVars[index + 1 + count]] :=
        slotsFrom_concat (by omega)
      rw [slotsFrom_succ (by omega), hrest, slotsFrom_succ (by omega), List.cons_append]
      simp only [hindex]

/-- Only the positions in the row matter. -/
theorem slotsFrom_congr : ∀ {count index : Nat}, index + count ≤ TypeVar.slotVars.length →
    (∀ position, index < position → position ≤ index + count → slot position = slot' position) →
      slotsFrom slot count index = slotsFrom slot' count index
  | 0, index, _, _ => rfl
  | count + 1, index, h, heq => by
      have hrest : slotsFrom slot count (index + 1) = slotsFrom slot' count (index + 1) :=
        slotsFrom_congr (by omega) fun position hlt hle => heq position (by omega) (by omega)
      rw [slotsFrom_succ (by omega), slotsFrom_succ (by omega), hrest,
        heq (index + 1) (by omega) (by omega)]

theorem exists_of_mem_slotsFrom {s : Slot} (h : s ∈ slotsFrom slot count index) :
    ∃ position, ∃ v ∈ TypeVar.slotVars, s = slot position v := by
  rw [slotsFrom, ← List.map_uncurry_zip_eq_zipWith, List.mem_map] at h
  obtain ⟨⟨position, v⟩, hmem, rfl⟩ := h
  exact ⟨position, v, List.mem_of_mem_drop (List.of_mem_zip hmem).2, rfl⟩

/-! ## The slots of a record -/

theorem callback?_of_none (h : f.iterateeArity = none) : f.callback? = none := by
  rw [callback?, h]
  rfl

theorem callback?_of_some {declared : Nat} (h : f.iterateeArity = some declared) :
    f.callback? = CallbackArity.ofDeclared declared := by
  rw [callback?, h]
  rfl

@[simp] theorem slotAt_generic (f : FunctionRecord) (position : Nat) (v : TypeVar) :
    (f.slotAt position v).generic = v := by
  unfold slotAt
  split
  · rfl
  · split
    · rfl
    · split <;> rfl

theorem length_layout (h : f.arity ≤ TypeVar.slotVars.length) : f.layout.length = f.arity :=
  length_slotsFrom (by omega)

/-- The slot at each position is bound to the variable of this position. -/
theorem generics_layout (h : f.arity ≤ TypeVar.slotVars.length) :
    f.layout.map Slot.generic = TypeVar.slotVars.take f.arity := by
  refine List.ext_getElem ?_ fun i hi hi' => ?_
  · rw [List.length_map, length_layout h, List.length_take, Nat.min_eq_left h]
  · rw [List.getElem_map, List.getElem_take]
    simp only [layout, slotsFrom, List.getElem_zipWith, slotAt_generic, List.drop_zero]

/-! ## Binding the slots -/

theorem bindVar_ok (h : index < TypeVar.slotVars.length) :
    f.bindVar index = .ok TypeVar.slotVars[index] := by
  rw [bindVar, TypeVar.forSlot, List.getElem?_eq_getElem h]

theorem bindSlots_ok : ∀ {count index : Nat}, index + count ≤ TypeVar.slotVars.length →
    f.bindSlots slot count index = .ok (slotsFrom slot count index)
  | 0, index, _ => rfl
  | count + 1, index, h => by
      have hindex : index < TypeVar.slotVars.length := by omega
      rw [bindSlots, bindVar_ok hindex, bind_ok, bindSlots_ok (by omega), bind_ok,
        slotsFrom_succ hindex]
      rfl

theorem slotAt_of_no_callback (h : f.callback? = none) : f.slotAt = Slot.positional := by
  funext position v
  rw [slotAt, h]

/-- Between the callback and the collection there are plain arguments. -/
theorem layout_of_callback {k : CallbackArity} (h : f.callback? = some k) (hdata : 2 ≤ f.arity)
    (hle : f.arity ≤ TypeVar.slotVars.length) :
    f.layout = Slot.iteratee k TypeVar.slotVars[0] :: slotsFrom Slot.extraArg (f.arity - 2) 1
      ++ [Slot.collection TypeVar.slotVars[f.arity - 1]] := by
  have harity : f.arity = f.arity - 2 + 1 + 1 := by omega
  have hlast : 1 + (f.arity - 2) = f.arity - 1 := by omega
  have hextra : slotsFrom f.slotAt (f.arity - 2) 1 = slotsFrom Slot.extraArg (f.arity - 2) 1 := by
    refine slotsFrom_congr (by omega) fun position hlt hle => ?_
    funext v
    simp only [slotAt, h]
    rw [if_neg (by omega), if_neg (by omega)]
  have hiteratee : ∀ v, f.slotAt 1 v = Slot.iteratee k v := fun v => by simp [slotAt, h]
  have hcollection : ∀ v, f.slotAt (f.arity - 1 + 1) v = Slot.collection v := fun v => by
    simp only [slotAt, h]
    rw [if_neg (by omega), if_pos (by omega)]
  calc f.layout
    _ = slotsFrom f.slotAt (f.arity - 2 + 1 + 1) 0 := congrArg (slotsFrom f.slotAt · 0) harity
    _ = f.slotAt 1 TypeVar.slotVars[0] :: (slotsFrom f.slotAt (f.arity - 2) 1
          ++ [f.slotAt (f.arity - 1 + 1) TypeVar.slotVars[f.arity - 1]]) := by
        rw [slotsFrom_succ (by decide), slotsFrom_concat (by omega)]
        simp only [hlast]
    _ = _ := by rw [hiteratee, hextra, hcollection, List.cons_append]

theorem iterateeSlots_ok {k : CallbackArity} (h : f.callback? = some k) (hdata : 2 ≤ f.arity)
    (hle : f.arity ≤ TypeVar.slotVars.length) : f.iterateeSlots k = .ok f.layout := by
  rw [iterateeSlots, bindVar_ok (by decide), bind_ok, bindSlots_ok (by omega), bind_ok,
    bindVar_ok (by omega), bind_ok, layout_of_callback h hdata hle]
  rfl

end FunctionRecord

end CurriedTypings
