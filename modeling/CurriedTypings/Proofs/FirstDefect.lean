import CurriedTypings.Proofs.PlanOutcome
import CurriedTypings.Proofs.Runs
import CurriedTypings.Proofs.StoreInvariant

/-!
# The first defect

Names are prepared in the order they are given, so a run that finds one it cannot
prepare reports the first such name, and has not asked its destination for anything.
This holds in both modes; in a parallel run a later name may well be tried before an
earlier one.

`Reports` lists what can be reported of a name: that it is not declared, or the
defect of its record. Since a store declares no function without arguments, nothing
else can be wrong with a name (`prepareOne_eq_error_iff`), and whatever else a run
reports comes from its destination.
-/

namespace CurriedTypings

open Generation

namespace Store

/-- A name for which there is nothing to generate: it is not declared, or its record cannot be
curried. -/
def Defective (store : Store) (name : String) : Prop :=
  name ∉ store.names ∨ ∃ f e, store.get name = .ok f ∧ f.curried = .error e

/-- What a run reports of a name. -/
inductive Reports (store : Store) (name : String) : GenerationError → Prop
  | undeclared (unknown : name ∉ store.names) :
      Reports store name (.metadata (.undeclaredFunction name))
  | defect {f : FunctionRecord} {e : SignatureError} (declared : store.get name = .ok f)
      (defective : f.Defect e) : Reports store name (.signature (some name) e)

variable {records : List FunctionRecord} {store : Store} {name : String} {e : GenerationError}

theorem Reports.function? (h : store.Reports name e) : e.function? = some name := by
  cases h <;> rfl

namespace BuiltFrom

variable (built : BuiltFrom records store)

include built

theorem callable {f : FunctionRecord} (h : store.get name = .ok f) : 1 ≤ f.arity :=
  built.declares.callable f (built.get_eq_ok_iff.mp h).1

theorem prepareOne_eq_error_iff : prepareOne store name = .error e ↔ store.Reports name e := by
  constructor
  · intro h
    cases hget : store.get name with
    | error m =>
        rw [prepareOne_of_error hget] at h
        obtain ⟨hunknown, rfl⟩ := built.get_eq_error_iff.mp hget
        obtain rfl := Except.error.inj h
        exact .undeclared hunknown
    | ok f =>
        rw [prepareOne_of_ok hget] at h
        cases hcurried : f.curried with
        | ok c => rw [hcurried] at h; cases h
        | error err =>
            rw [hcurried] at h
            obtain rfl := Except.error.inj h
            exact .defect hget ((FunctionRecord.curried_eq_error_iff (built.callable hget)).mp hcurried)
  · intro h
    cases h with
    | undeclared hunknown =>
        exact prepareOne_of_error (built.get_eq_error_iff.mpr ⟨hunknown, rfl⟩)
    | defect hget hdefect =>
        rw [prepareOne_of_ok hget, FunctionRecord.curried_of_defect hdefect]
        rfl

theorem defective_iff : store.Defective name ↔ ∃ e, store.Reports name e := by
  constructor
  · rintro (hunknown | ⟨f, e, hget, hcurried⟩)
    · exact ⟨_, .undeclared hunknown⟩
    · exact ⟨_, .defect hget ((FunctionRecord.curried_eq_error_iff (built.callable hget)).mp hcurried)⟩
  · rintro ⟨e, hreports⟩
    cases hreports with
    | undeclared hunknown => exact Or.inl hunknown
    | defect hget hdefect => exact Or.inr ⟨_, _, hget, FunctionRecord.curried_of_defect hdefect⟩

theorem not_defective_of_ok {c : CurriedFunction} (h : prepareOne store name = .ok c) :
    ¬ store.Defective name := by
  intro hdefective
  obtain ⟨e, hreports⟩ := built.defective_iff.mp hdefective
  exact nomatch h.symm.trans (built.prepareOne_eq_error_iff.mpr hreports)

/-- Preparing names fails only with the report of the first name that is defective. -/
theorem prepare_cases (names : List String) :
    ((∃ functions, prepare store names = .ok functions) ∧ ∀ n ∈ names, ¬ store.Defective n) ∨
      ∃ before name after e, names = before ++ name :: after
        ∧ (∀ n ∈ before, ¬ store.Defective n) ∧ store.Reports name e
        ∧ prepare store names = .error e := by
  rcases mapM_cases (prepareOne store) names with
    ⟨functions, hok, hall⟩ | ⟨before, name, after, e, rfl, hbefore, hname, herror⟩
  · refine Or.inl ⟨⟨functions, hok⟩, fun n hn => ?_⟩
    obtain ⟨c, hc⟩ := hall n hn
    exact built.not_defective_of_ok hc
  · refine Or.inr ⟨before, name, after, e, rfl, fun n hn => ?_,
      built.prepareOne_eq_error_iff.mp hname, herror⟩
    obtain ⟨c, hc⟩ := hbefore n hn
    exact built.not_defective_of_ok hc

end BuiltFrom

end Store

/-- Once a run delivers, only its destination can stop it. -/
theorem Destination.deliver_error {σ : Type} {d : Destination σ} {ops : List OutputOp}
    {report : Report} {s : σ} {e : GenerationError} (h : (d.deliver ops report s).2 = .error e) :
    ∃ reason, e = .output reason := by
  rw [deliver] at h
  split at h
  · cases h
  · exact ⟨_, (Except.error.inj h).symm⟩

/-- **All or nothing, and the first defect counts.** Take a store built from records, a
destination, and names, one of which is not declared or has a record that cannot be curried.
Both modes ask the destination for nothing and report the first such name. What they report of
a name is that it is undeclared or one of the four defects of its record, and is of the kind of
this defect. Nothing else that is wrong with records or interfaces is ever reported: any other
failure is one of the destination. -/
theorem generate_first_defect {records : List FunctionRecord} {store : Store}
    (built : Store.ofRecords records = .ok store) {σ : Type} (d : Destination σ)
    (options : ModuleOptions) {names : List String} {schedule : List Nat}
    (once : schedule.Perm (List.range names.length)) (s : σ) :
    ((∃ name ∈ names, store.Defective name) →
        ∃ before name after e, names = before ++ name :: after
          ∧ (∀ n ∈ before, ¬ store.Defective n) ∧ store.Defective name ∧ store.Reports name e
          ∧ generate d store options names s = (s, .error e)
          ∧ generateParallel d store options schedule names s = (s, .error e)
          ∧ generate d.traced store options names (s, []) = ((s, []), .error e)
          ∧ generateParallel d.traced store options schedule names (s, []) = ((s, []), .error e)
          ∧ e.function? = some name
          ∧ ((∃ m, e = .metadata m ∧ e.kind? = some m.kind)
            ∨ ∃ err, e = .signature (some name) err ∧ e.kind? = some err.kind))
      ∧ (∀ e, (generate d store options names s).2 = .error e
          ∨ (generateParallel d store options schedule names s).2 = .error e →
            (∃ reason, e = .output reason) ∨ ∃ name ∈ names, store.Reports name e)
      ∧ (∀ name f, store.get name = .ok f → ∀ err, f.curried = .error err ↔ f.Defect err)
      ∧ ∃ definitions, continuationDefinitions = .ok definitions := by
  have hbuilt := Store.builtFrom_ofRecords built
  refine ⟨?_, ?_, ?_, continuationDefinitions_ok⟩
  · rintro ⟨bad, hmem, hbad⟩
    rcases hbuilt.prepare_cases names with
      ⟨-, hgood⟩ | ⟨before, name, after, e, hnames, hbefore, hreports, herror⟩
    · exact absurd hbad (hgood bad hmem)
    · refine ⟨before, name, after, e, hnames, hbefore, hbuilt.defective_iff.mpr ⟨e, hreports⟩,
        hreports, generate_of_error herror s, generateParallel_of_error once herror s,
        generate_of_error herror _, generateParallel_of_error once herror _, hreports.function?, ?_⟩
      cases hreports with
      | undeclared => exact Or.inl ⟨_, rfl, rfl⟩
      | defect => exact Or.inr ⟨_, rfl, rfl⟩
  · intro e he
    obtain ⟨definitions, hd⟩ := continuationDefinitions_ok
    rcases hbuilt.prepare_cases names with
      ⟨⟨functions, hok⟩, -⟩ | ⟨before, name, after, e', rfl, -, hreports, herror⟩
    · rw [generate_of_ok hd hok, generateParallel_of_ok once hd hok] at he
      exact Or.inl (he.elim Destination.deliver_error Destination.deliver_error)
    · rw [generate_of_error herror, generateParallel_of_error once herror] at he
      have heq : e' = e := he.elim Except.error.inj Except.error.inj
      exact Or.inr ⟨name, by simp, heq ▸ hreports⟩
  · intro name f hget err
    exact FunctionRecord.curried_eq_error_iff (hbuilt.callable hget)

/-- A function with too many parameters and a name that is not declared, tried last one
first. -/
theorem generate_first_defect_wide :
    ∃ store, Store.ofRecords [.declare "add" 2, .declare "wide" 5] = .ok store
      ∧ [2, 1, 0].Perm (List.range ["add", "wide", "none"].length)
      ∧ (∃ name ∈ ["add", "wide", "none"], store.Defective name)
      ∧ ∃ before name after e, ["add", "wide", "none"] = before ++ name :: after
          ∧ generateParallel textDestination store {} [2, 1, 0] ["add", "wide", "none"] ""
              = ("", .error e)
          ∧ e.function? = some name := by
  have once : [2, 1, 0].Perm (List.range ["add", "wide", "none"].length) := by decide
  have built : Store.ofRecords [.declare "add" 2, .declare "wide" 5] = .ok
      { functions := [("add", .declare "add" 2), ("wide", .declare "wide" 5)],
        names := ["add", "wide"] } :=
    Store.ofRecords_eq rfl (List.Perm.refl _) (by decide) rfl
  have defective : ∃ name ∈ ["add", "wide", "none"], Store.Defective
      { functions := [("add", .declare "add" 2), ("wide", .declare "wide" 5)],
        names := ["add", "wide"] } name := ⟨"none", by decide, Or.inl (by decide)⟩
  obtain ⟨hfirst, -⟩ := generate_first_defect built textDestination {} once ""
  obtain ⟨before, name, after, e, hnames, -, -, -, -, hparallel, -, -, hfunction, -⟩ :=
    hfirst defective
  exact ⟨_, built, once, defective, before, name, after, e, hnames, hparallel, hfunction⟩

end CurriedTypings
