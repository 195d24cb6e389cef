import CurriedTypings.Proofs.Overloads
import Mathlib.Algebra.GroupWithZero.Nat

/-!
# Calls in groups

The arguments of a curried function may be supplied in several calls. The first one
selects an overload by the number of its arguments; each further one selects a
signature of the interface that the continuation left by the call before refers to,
with the types it refers to put in for the parameters of the interface.

Types have no binders, so all variables of a type can be replaced at once: what is
put in for one variable is not looked at again, even if it holds the very variables
that are being replaced. `instantiation` puts arguments in for the generic parameters
of a declaration, as a reference such as `Curry2<B, CollectionOf<C>, Z>` does.

`groupedCalls` is what such calls should come to: each group accepts the next types
and leaves a function that waits for the others. One further call does this
(`resume_continuation`), and so does any number of them (`resumeAll_waitingFor`), since
a call leaves a continuation of the very form it was made on. The headline theorem
`callInGroups_sound` says it for the overloads of any slot list that can be curried.
-/

namespace CurriedTypings

/-! ## Substitution -/

namespace TypeExpr

mutual

def subst (σ : TypeVar → TypeExpr) : TypeExpr → TypeExpr
  | var v => σ v
  | array element => array (element.subst σ)
  | collection element => collection (element.subst σ)
  | iteratee k value result => iteratee k (value.subst σ) (result.subst σ)
  | continuation remaining result => continuation (substAll σ remaining) (result.subst σ)

def substAll (σ : TypeVar → TypeExpr) : List TypeExpr → List TypeExpr
  | [] => []
  | t :: ts => t.subst σ :: substAll σ ts

end

theorem substAll_eq_map (σ : TypeVar → TypeExpr) (ts : List TypeExpr) :
    substAll σ ts = ts.map (subst σ) := by
  induction ts with
  | nil => rfl
  | cons t ts ih => rw [substAll, ih]; rfl

/-- Stands for the arguments of a reference: each parameter for the argument in its place, any
other variable for itself. -/
def instantiation (params : List TypeVar) (args : List TypeExpr) (v : TypeVar) : TypeExpr :=
  ((params.zip args).lookup v).getD (var v)

theorem instantiation_cons_self (p : TypeVar) (params : List TypeVar) (arg : TypeExpr)
    (args : List TypeExpr) : instantiation (p :: params) (arg :: args) p = arg := by
  simp [instantiation]

theorem instantiation_cons_of_ne {p v : TypeVar} (h : v ≠ p) (params : List TypeVar)
    (arg : TypeExpr) (args : List TypeExpr) :
    instantiation (p :: params) (arg :: args) v = instantiation params args v := by
  have hne : (v == p) = false := by simpa using h
  rw [instantiation, List.zip_cons_cons, List.lookup_cons, hne]
  rfl

/-- Distinct parameters stand for exactly the arguments given. -/
theorem map_instantiation : ∀ {params : List TypeVar} {args : List TypeExpr},
    params.Nodup → params.length = args.length → params.map (instantiation params args) = args
  | [], [], _, _ => rfl
  | p :: params, arg :: args, hnodup, hlength => by
      obtain ⟨hp, hnodup⟩ := List.nodup_cons.mp hnodup
      have hrest : ∀ v ∈ params, instantiation (p :: params) (arg :: args) v
          = instantiation params args v := by
        intro v hv
        have hne : v ≠ p := by rintro rfl; exact hp hv
        exact instantiation_cons_of_ne hne params arg args
      rw [List.map_cons, instantiation_cons_self, List.map_congr_left hrest,
        map_instantiation hnodup (Nat.succ.inj hlength)]

end TypeExpr

/-! ## Calls -/

structure Call where
  accepts : List TypeExpr
  returns : TypeExpr
  deriving Repr

/-- Calls what an earlier call returned with `count` more arguments. -/
def resume (t : TypeExpr) (count : Nat) : Option Call := do
  let (remaining, result) ← t.asContinuation?
  let definition ← (continuationDefinition remaining.length).toOption
  let overload ← onlyTaking definition.signatures count
  let σ := TypeExpr.instantiation definition.typeParams (remaining ++ [result])
  return ⟨overload.slotTypes.map (TypeExpr.subst σ), overload.returnType.subst σ⟩

def resumeAll (t : TypeExpr) : List Nat → Option (List Call)
  | [] => some []
  | count :: counts => do
    let call ← resume t count
    let calls ← resumeAll call.returns counts
    return call :: calls

/-- The calls that supply the arguments of a function in groups of the given sizes. -/
def callInGroups (overloads : List Overload) : List Nat → Option (List Call)
  | [] => some []
  | count :: counts => do
    let overload ← onlyTaking overloads count
    let calls ← resumeAll overload.returnType counts
    return ⟨overload.slotTypes, overload.returnType⟩ :: calls

/-- The types `ts` accepted in groups, on the way to `result`. -/
def groupedCalls (result : TypeExpr) (ts : List TypeExpr) : List Nat → List Call
  | [] => []
  | count :: counts =>
    ⟨ts.take count, .waitingFor (ts.drop count) result⟩
      :: groupedCalls result (ts.drop count) counts

/-! ## One further call -/

theorem TypeExpr.subst_waitingFor (σ : TypeVar → TypeExpr) (ts : List TypeExpr)
    (result : TypeExpr) : (waitingFor ts result).subst σ
      = waitingFor (ts.map (subst σ)) (result.subst σ) := by
  cases ts with
  | nil => rfl
  | cons t ts =>
      rw [waitingFor_of_ne_nil (List.cons_ne_nil _ _), subst, substAll_eq_map, List.map_cons]
      rfl

theorem nodup_interfaceParams (width : Nat) :
    (TypeVar.slotVars.take width ++ [TypeVar.result]).Nodup :=
  nodup_append_singleton.mpr ⟨TypeVar.nodup_slotVars.take,
    fun h => TypeVar.result_not_mem_slotVars (List.mem_of_mem_take h)⟩

/-- A reference to an interface puts each type in for the variable of its slot and the result
in for the result variable, whatever variables the types themselves hold. -/
theorem instantiation_interfaceParams {remaining : List TypeExpr} (result : TypeExpr)
    (hle : remaining.length ≤ TypeVar.slotVars.length) :
    let σ := TypeExpr.instantiation
      (TypeVar.slotVars.take remaining.length ++ [TypeVar.result]) (remaining ++ [result])
    (TypeVar.slotVars.take remaining.length).map σ = remaining ∧ σ .result = result := by
  intro σ
  have hvars : (TypeVar.slotVars.take remaining.length).length = remaining.length := by
    rw [List.length_take, Nat.min_eq_left hle]
  have hall : (TypeVar.slotVars.take remaining.length ++ [TypeVar.result]).map σ
      = remaining ++ [result] :=
    TypeExpr.map_instantiation (nodup_interfaceParams _) (by simp [hvars])
  rw [List.map_append] at hall
  obtain ⟨hslots, hresult⟩ := List.append_inj hall (by rw [List.length_map, hvars])
  exact ⟨hslots, List.singleton_inj.mp hresult⟩

/-- A call of a continuation accepts the next types and waits for the others. -/
theorem resume_continuation {remaining : List TypeExpr} {count : Nat} (hpos : 0 < count)
    (hcount : count ≤ remaining.length) (hwidth : remaining.length ≤ maxContinuationWidth)
    (result : TypeExpr) : resume (.continuation remaining result) count
      = some ⟨remaining.take count, .waitingFor (remaining.drop count) result⟩ := by
  obtain ⟨slots, hdefinition, htypes⟩ :=
    continuationDefinition_ok (Nat.lt_of_lt_of_le hpos hcount) hwidth
  have hvars := Nat.le_trans hwidth maxContinuationWidth_le
  obtain ⟨hslots, hresult⟩ := instantiation_interfaceParams result hvars
  have hlength : slots.length = remaining.length := by
    rw [← List.length_map Slot.type, htypes, List.length_map, List.length_take,
      Nat.min_eq_left hvars]
  have hsignature := onlyTaking_overloadsFrom hpos (hlength ▸ hcount) (.var .result)
  have hsubst : (slots.map Slot.type).map (TypeExpr.subst (TypeExpr.instantiation
      (TypeVar.slotVars.take remaining.length ++ [.result]) (remaining ++ [result])))
        = remaining := by
    rw [htypes, List.map_map]
    exact hslots
  simp only [resume, TypeExpr.asContinuation?, hdefinition, Except.toOption, hsignature,
    overloadTaking, Overload.slotTypes, Option.bind_eq_bind, Option.bind_some]
  rw [TypeExpr.subst_waitingFor, List.map_take, List.map_take, List.map_drop, List.map_drop,
    hsubst]
  exact congrArg (fun t => some (Call.mk _ (.waitingFor _ t))) hresult

/-! ## Any number of calls -/

/-- The calls that a continuation is left with supply what it waits for. -/
theorem resumeAll_waitingFor (result : TypeExpr) : ∀ {counts : List Nat} {ts : List TypeExpr},
    (∀ n ∈ counts, 0 < n) → counts.sum = ts.length → ts.length ≤ maxContinuationWidth →
      resumeAll (.waitingFor ts result) counts = some (groupedCalls result ts counts)
  | [], ts, _, _, _ => rfl
  | count :: counts, ts, hpos, hsum, hwidth => by
      have hcount := hpos count (List.mem_cons_self ..)
      rw [List.sum_cons] at hsum
      have hne : ts ≠ [] := by
        rintro rfl
        rw [List.length_nil] at hsum
        omega
      have hrest : (ts.drop count).length = ts.length - count := List.length_drop ..
      have ih := resumeAll_waitingFor result (fun n hn => hpos n (List.mem_cons_of_mem _ hn))
        (show counts.sum = (ts.drop count).length by omega) (by omega)
      rw [TypeExpr.waitingFor_of_ne_nil hne, resumeAll,
        resume_continuation hcount (by omega) hwidth]
      simp only [Option.bind_eq_bind, Option.bind_some, ih]
      rfl

/-- The first call leaves at most as many slots outstanding as an interface takes. -/
theorem callInGroups_overloadsFrom {slots : List Slot} {counts : List Nat}
    (hpos : ∀ n ∈ counts, 0 < n) (hsum : counts.sum = slots.length)
    (hlength : slots.length ≤ maxContinuationWidth + 1) (final : TypeExpr) :
    callInGroups (overloadsFrom final [] slots) counts
      = some (groupedCalls final (slots.map Slot.type) counts) := by
  cases counts with
  | nil => rfl
  | cons count counts =>
      have hcount := hpos count (List.mem_cons_self ..)
      rw [List.sum_cons] at hsum
      have hrest : ((slots.drop count).map Slot.type).length = slots.length - count := by
        rw [List.length_map, List.length_drop]
      have hresume := resumeAll_waitingFor final
        (fun n hn => hpos n (List.mem_cons_of_mem _ hn))
        (show counts.sum = ((slots.drop count).map Slot.type).length by omega) (by omega)
      rw [callInGroups, onlyTaking_overloadsFrom hcount (by omega)]
      simp only [Option.bind_eq_bind, Option.bind_some, overloadTaking, hresume]
      rw [Overload.slotTypes, groupedCalls, List.map_take, List.map_drop]
      rfl

/-! ## What grouped calls come to -/

section Grouped

variable (result : TypeExpr)

theorem groupedCalls_sizes : ∀ {counts : List Nat} {ts : List TypeExpr},
    counts.sum = ts.length → (groupedCalls result ts counts).map (·.accepts.length) = counts
  | [], _, _ => rfl
  | count :: counts, ts, hsum => by
      rw [List.sum_cons] at hsum
      have hrest : counts.sum = (ts.drop count).length := by rw [List.length_drop]; omega
      rw [groupedCalls, List.map_cons, groupedCalls_sizes hrest, List.length_take,
        Nat.min_eq_left (by omega)]

theorem groupedCalls_accepts : ∀ {counts : List Nat} {ts : List TypeExpr},
    counts.sum = ts.length → (groupedCalls result ts counts).flatMap Call.accepts = ts
  | [], ts, hsum => (List.eq_nil_of_length_eq_zero hsum.symm).symm
  | count :: counts, ts, hsum => by
      rw [List.sum_cons] at hsum
      have hrest : counts.sum = (ts.drop count).length := by rw [List.length_drop]; omega
      rw [groupedCalls, List.flatMap_cons, groupedCalls_accepts hrest, List.take_append_drop]

/-- Every call returns what waits for all that the calls after it accept. -/
theorem groupedCalls_returns : ∀ {counts : List Nat} {ts : List TypeExpr},
    counts.sum = ts.length → ∀ {before after : List Call} {c : Call},
      groupedCalls result ts counts = before ++ c :: after →
        c.returns = .waitingFor (after.flatMap Call.accepts) result
  | [], _, _, before, after, c, h => absurd h.symm (by simp [groupedCalls])
  | count :: counts, ts, hsum, before, after, c, h => by
      rw [List.sum_cons] at hsum
      have hrest : counts.sum = (ts.drop count).length := by rw [List.length_drop]; omega
      rw [groupedCalls] at h
      cases before with
      | nil =>
          obtain ⟨rfl, rfl⟩ := List.cons.inj h
          rw [groupedCalls_accepts result hrest]
      | cons b before => exact groupedCalls_returns hrest (List.cons.inj h).2

theorem groupedCalls_accepts_ne_nil {counts : List Nat} {ts : List TypeExpr}
    (hpos : ∀ n ∈ counts, 0 < n) (hsum : counts.sum = ts.length) :
    ∀ c ∈ groupedCalls result ts counts, 0 < c.accepts.length := by
  intro c hc
  have hsize : c.accepts.length ∈ (groupedCalls result ts counts).map (·.accepts.length) :=
    List.mem_map_of_mem hc
  rw [groupedCalls_sizes result hsum] at hsize
  exact hpos _ hsize

theorem groupedCalls_last {counts : List Nat} {ts : List TypeExpr} (hne : counts ≠ [])
    (hsum : counts.sum = ts.length) :
    (groupedCalls result ts counts).getLast?.map Call.returns = some result := by
  have hcalls : groupedCalls result ts counts ≠ [] := by
    intro hnil
    have hsizes := groupedCalls_sizes result hsum
    rw [hnil] at hsizes
    exact hne hsizes.symm
  have hsplit := (List.dropLast_append_getLast hcalls).symm
  rw [List.getLast?_eq_some_getLast hcalls, Option.map_some,
    groupedCalls_returns result hsum hsplit]
  rfl

end Grouped

/-- **Currying is sound however arguments are grouped.** Let the arguments of a function that
can be curried be supplied in groups, none of them empty. Each group finds exactly one overload
or signature of its size, the types accepted are those of the slots, in order, and the last
call returns the final type. Every other call returns a continuation over the types that the
calls after it accept, of which there are one to three. -/
theorem callInGroups_sound {slots : List Slot} {final : TypeExpr} {overloads : List Overload}
    (curried : curry slots final = .ok overloads) {counts : List Nat}
    (nonempty : ∀ n ∈ counts, 0 < n) (all : counts.sum = slots.length) :
    ∃ calls, callInGroups overloads counts = some calls
      ∧ calls.map (·.accepts.length) = counts
      ∧ calls.flatMap Call.accepts = slots.map Slot.type
      ∧ calls.getLast?.map Call.returns = some final
      ∧ ∀ before c after, calls = before ++ c :: after → after ≠ [] →
          c.returns = .continuation (after.flatMap Call.accepts) final
            ∧ 1 ≤ (after.flatMap Call.accepts).length
            ∧ (after.flatMap Call.accepts).length ≤ 3 := by
  obtain ⟨hslots, hlength, rfl⟩ := curry_eq_ok_iff.mp curried
  have hsum : counts.sum = (slots.map Slot.type).length := by rw [List.length_map, all]
  have hcounts : counts ≠ [] := by
    rintro rfl
    exact hslots (List.eq_nil_of_length_eq_zero all.symm)
  have haccepts := groupedCalls_accepts final hsum
  refine ⟨groupedCalls final (slots.map Slot.type) counts,
    callInGroups_overloadsFrom nonempty all hlength final, groupedCalls_sizes final hsum,
    haccepts, groupedCalls_last final hcounts hsum, ?_⟩
  intro before c after hcalls hafter
  have hreturns := groupedCalls_returns final hsum hcalls
  have hpos := groupedCalls_accepts_ne_nil final nonempty hsum
  rw [hcalls] at haccepts hpos
  have hc : 0 < c.accepts.length := hpos c (by simp)
  rw [List.flatMap_append, List.flatMap_cons] at haccepts
  have hlengths := congrArg List.length haccepts
  rw [List.length_append, List.length_append, List.length_map] at hlengths
  obtain ⟨next, rest, rfl⟩ := List.exists_cons_of_ne_nil hafter
  have hnext : 0 < next.accepts.length := hpos next (by simp)
  have houtstanding : 1 ≤ ((next :: rest).flatMap Call.accepts).length := by
    rw [List.flatMap_cons, List.length_append]
    omega
  have hwidth : maxContinuationWidth = 3 := rfl
  refine ⟨?_, houtstanding, by omega⟩
  rw [hreturns]
  exact TypeExpr.waitingFor_of_ne_nil (List.ne_nil_of_length_pos houtstanding) final

/-- Slots whose types hold the variables of the interfaces themselves. -/
theorem callInGroups_sound_capturing :
    let slots : List Slot :=
      [⟨"first", .array (.var .z), .a, .positional⟩,
        ⟨"second", .iteratee .binary (.var .b) (.var .a), .b, .positional⟩,
        ⟨"third", .continuation [.var .c, .var .a] (.var .z), .c, .positional⟩,
        ⟨"fourth", .var .b, .d, .positional⟩]
    curry slots (.collection (.var .c)) = .ok (overloadsFrom (.collection (.var .c)) [] slots)
      ∧ (∀ n ∈ [1, 2, 1], 0 < n) ∧ [1, 2, 1].sum = slots.length
      ∧ ∃ calls, callInGroups (overloadsFrom (.collection (.var .c)) [] slots) [1, 2, 1]
          = some calls ∧ calls.flatMap Call.accepts = slots.map Slot.type := by
  intro slots
  have curried : curry slots (.collection (.var .c))
      = .ok (overloadsFrom (.collection (.var .c)) [] slots) := rfl
  have nonempty : ∀ n ∈ [1, 2, 1], 0 < n := by decide
  have all : [1, 2, 1].sum = slots.length := rfl
  obtain ⟨calls, hcalls, -, haccepts, -⟩ := callInGroups_sound curried nonempty all
  exact ⟨curried, nonempty, all, calls, hcalls, haccepts⟩

end CurriedTypings
