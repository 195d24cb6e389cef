import CurriedTypings.Generation
import CurriedTypings.Proofs.FirstDefect
import CurriedTypings.Proofs.Interruption

/-!
# Selecting all that can be curried

The selection of all functions that can be curried goes by one property of a record: it
takes every function without a spread argument. Currying asks for more, namely for a
callback that fits and for enough variables, so a function may be selected and still be
refused (`generate_curriable_wide`).

`curriedNames` are the names that the selection is named after. They are always
selected; nothing else is exactly if all records without a spread argument are
`Plannable`, which is also when a run for the selection meets no defect
(`curriableNames_verdict`).
-/

namespace CurriedTypings

open Generation

namespace FunctionRecord

variable {f : FunctionRecord}

theorem plannable_iff_curried (callable : 1 ≤ f.arity) :
    f.Plannable ↔ ∃ c, f.curried = .ok c := by
  refine ⟨curried_of_plannable callable, ?_⟩
  rintro ⟨c, hc⟩
  rcases f.plannable_or_defect with hplannable | ⟨e, hdefect⟩
  · exact hplannable
  · exact nomatch hc.symm.trans (curried_of_defect hdefect)

end FunctionRecord

namespace Store

def curriedNames (s : Store) : List String :=
  (s.records.filter fun f => f.curried.isOk).map FunctionRecord.name

theorem isOk_iff {f : FunctionRecord} : f.curried.isOk ↔ ∃ c, f.curried = .ok c := by
  cases f.curried with
  | error e => simp [Except.isOk, Except.toBool]
  | ok c => simp [Except.isOk, Except.toBool]

def PlainPlannable (records : List FunctionRecord) : Prop :=
  ∀ f ∈ records, f.spreadStart = none → f.Plannable

namespace BuiltFrom

variable {records : List FunctionRecord} {store : Store} (built : BuiltFrom records store)

include built

theorem isOk_iff_plannable {f : FunctionRecord} (hf : f ∈ records) :
    f.curried.isOk ↔ f.Plannable := by
  rw [isOk_iff, FunctionRecord.plannable_iff_curried (built.declares.callable f hf)]

/-- What can be curried has no spread argument. -/
theorem curriedNames_sublist : store.curriedNames.Sublist store.curriableNames := by
  have hplain : store.records.filter (fun f => f.curried.isOk)
      = (store.records.filter fun f => f.spreadStart.isNone).filter fun f => f.curried.isOk := by
    rw [List.filter_filter]
    refine List.filter_congr fun f hf => ?_
    rw [Bool.eq_self_and, built.isOk_iff_plannable (built.records_perm.mem_iff.mp hf)]
    exact fun hplannable => Option.isNone_iff_eq_none.mpr hplannable.plain
  rw [curriedNames, curriableNames, hplain]
  exact List.filter_sublist.map _

theorem mem_curriedNames {n : String} :
    n ∈ store.curriedNames ↔ ∃ f ∈ records, f.name = n ∧ ∃ c, f.curried = .ok c := by
  rw [curriedNames, (built.names_of_filter fun f => f.curried.isOk).2]
  simp only [isOk_iff]

theorem mem_curriableNames {n : String} :
    n ∈ store.curriableNames ↔ ∃ f ∈ records, f.name = n ∧ f.spreadStart = none := by
  rw [curriableNames, (built.names_of_filter fun f => f.spreadStart.isNone).2]
  simp only [Option.isNone_iff_eq_none]

/-- Exactly the functions that can be curried are selected if this is true of all functions
without a spread argument. -/
theorem curriableNames_eq_iff :
    store.curriableNames = store.curriedNames ↔ PlainPlannable records := by
  constructor
  · intro h f hf hplain
    have hselected : f.name ∈ store.curriedNames :=
      h ▸ built.mem_curriableNames.mpr ⟨f, hf, rfl, hplain⟩
    obtain ⟨g, hg, hname, hcurried⟩ := built.mem_curriedNames.mp hselected
    obtain rfl := built.declares.name_injective hg hf hname
    exact (FunctionRecord.plannable_iff_curried (built.declares.callable g hg)).mpr hcurried
  · intro hall
    refine congrArg (List.map FunctionRecord.name) (List.filter_congr fun f hf => ?_)
    have hf : f ∈ records := built.records_perm.mem_iff.mp hf
    rw [Bool.eq_iff_iff, Option.isNone_iff_eq_none, built.isOk_iff_plannable hf]
    exact ⟨hall f hf, FunctionRecord.Plannable.plain⟩

/-- What is reported of a selected function: it is declared and has no spread argument, so it
has one of the other defects. -/
theorem Reports.of_selected {name : String} {e : GenerationError} (h : store.Reports name e)
    (selected : name ∈ store.curriableNames) :
    ∃ f err, f ∈ records ∧ f.name = name ∧ f.spreadStart = none ∧ f.Defect err
      ∧ e = .signature (some name) err := by
  obtain ⟨f, hf, rfl, hplain⟩ := built.mem_curriableNames.mp selected
  have hget : store.get f.name = .ok f := built.get_eq_ok_iff.mpr ⟨hf, rfl⟩
  cases h with
  | undeclared hunknown =>
      exact absurd (built.names_perm.mem_iff.mpr (List.mem_map_of_mem hf)) hunknown
  | @defect g err hdeclared hdefect =>
      obtain rfl := Except.ok.inj (hdeclared.symm.trans hget)
      exact ⟨g, err, hf, rfl, hplain, hdefect, rfl⟩

/-- Preparing the selection fails exactly if some function without a spread argument has another
defect. -/
theorem prepare_curriable_cases :
    (PlainPlannable records
      ∧ ∃ functions, prepare store store.curriableNames = .ok functions)
    ∨ (¬ PlainPlannable records ∧ ∃ before name after f err,
        store.curriableNames = before ++ name :: after ∧ (∀ n ∈ before, ¬ store.Defective n)
          ∧ f ∈ records ∧ f.name = name ∧ f.spreadStart = none ∧ f.Defect err
          ∧ prepare store store.curriableNames = .error (.signature (some name) err)) := by
  rcases built.prepare_cases store.curriableNames with
    ⟨hok, hall⟩ | ⟨before, name, after, e, hnames, hbefore, hreports, herror⟩
  · refine Or.inl ⟨fun f hf hplain => ?_, hok⟩
    have hselected := built.mem_curriableNames.mpr ⟨f, hf, rfl, hplain⟩
    rcases f.plannable_or_defect with hplannable | ⟨e, hdefect⟩
    · exact hplannable
    · have hget : store.get f.name = .ok f := built.get_eq_ok_iff.mpr ⟨hf, rfl⟩
      exact absurd (built.defective_iff.mpr ⟨_, .defect hget hdefect⟩) (hall _ hselected)
  · have hselected : name ∈ store.curriableNames := hnames ▸ by simp
    obtain ⟨f, err, hf, hname, hplain, hdefect, rfl⟩ :=
      Reports.of_selected built hreports hselected
    refine Or.inr ⟨fun hall => ?_, before, name, after, f, err, hnames, hbefore, hf, hname, hplain,
      hdefect, herror⟩
    exact hdefect.not_plannable (hall f hf hplain)

end BuiltFrom

end Store

/-- **What the selection of all functions comes to.** For a store built from records, the
selection lists, in order, the functions without a spread argument. All that can be curried is
among them, and nothing else exactly if every function without a spread argument has a callback
that fits, if any, and no more parameters than there are variables. Just then a run for the
selection, in either mode and to any destination, ends without a defect of a signature.
Otherwise it asks its destination for nothing and reports the first selected function that has
a defect, which is never the spread argument nor that the name is not declared. -/
theorem curriableNames_verdict {records : List FunctionRecord} {store : Store}
    (built : Store.ofRecords records = .ok store) :
    store.curriableNames.Sublist store.names
      ∧ (∀ n, n ∈ store.curriableNames ↔ ∃ f ∈ records, f.name = n ∧ f.spreadStart = none)
      ∧ store.curriedNames.Sublist store.curriableNames
      ∧ (∀ n, n ∈ store.curriedNames ↔ ∃ f ∈ records, f.name = n ∧ ∃ c, f.curried = .ok c)
      ∧ (store.curriableNames = store.curriedNames ↔ ∀ f ∈ records, f.spreadStart = none →
          f.CallbackFits ∧ f.arity ≤ TypeVar.slotVars.length)
      ∧ ∀ (mode : Mode) (σ : Type) (d : Destination σ) (options : ModuleOptions) (s : σ),
          mode.Covers (Selection.curriable.resolve store) →
            (store.curriableNames = store.curriedNames →
              ∀ e, (mode.run d store options (Selection.curriable.resolve store) s).2 = .error e →
                ∃ reason, e = .output reason)
            ∧ (store.curriableNames ≠ store.curriedNames →
              ∃ before name after f err, store.curriableNames = before ++ name :: after
                ∧ (∀ n ∈ before, n ∈ store.curriedNames) ∧ store.get name = .ok f
                ∧ f.spreadStart = none ∧ f.Defect err
                ∧ mode.run d store options (Selection.curriable.resolve store) s
                    = (s, .error (.signature (some name) err))) := by
  have hbuilt := Store.builtFrom_ofRecords built
  have hplannable : Store.PlainPlannable records ↔ ∀ f ∈ records, f.spreadStart = none →
      f.CallbackFits ∧ f.arity ≤ TypeVar.slotVars.length :=
    forall₂_congr fun f hf => forall_congr' fun hplain =>
      ⟨fun h => ⟨h.callback, h.fewEnough⟩, fun h => ⟨h.1, hplain, h.2⟩⟩
  refine ⟨(hbuilt.names_of_filter _).1, fun n => hbuilt.mem_curriableNames,
    hbuilt.curriedNames_sublist, fun n => hbuilt.mem_curriedNames,
    hbuilt.curriableNames_eq_iff.trans hplannable, fun mode σ d options s covers => ?_⟩
  simp only [Selection.resolve] at covers ⊢
  rw [Ne, hbuilt.curriableNames_eq_iff]
  rcases hbuilt.prepare_curriable_cases with ⟨hall, functions, hok⟩ |
    ⟨hnot, before, name, after, f, err, hnames, hbefore, hf, hname, hplain, hdefect, herror⟩
  · obtain ⟨definitions, hd⟩ := continuationDefinitions_ok
    refine ⟨fun _ e he => ?_, absurd hall⟩
    rw [Mode.run_of_ok covers hd hok] at he
    exact Destination.deliver_error he
  · refine ⟨fun hall => absurd hall hnot, fun _ => ⟨before, name, after, f, err, hnames,
      fun n hn => ?_, hbuilt.get_eq_ok_iff.mpr ⟨hf, hname⟩, hplain, hdefect,
      Mode.run_of_error covers herror d options s⟩⟩
    have hselected : n ∈ store.curriableNames := hnames ▸ List.mem_append_left _ hn
    obtain ⟨g, hg, rfl, -⟩ := hbuilt.mem_curriableNames.mp hselected
    rcases g.plannable_or_defect with hgood | ⟨e, hbad⟩
    · exact hbuilt.mem_curriedNames.mpr
        ⟨g, hg, rfl, FunctionRecord.curried_of_plannable (hbuilt.declares.callable g hg) hgood⟩
    · have hget : store.get g.name = .ok g := hbuilt.get_eq_ok_iff.mpr ⟨hg, rfl⟩
      exact absurd (hbuilt.defective_iff.mpr ⟨_, .defect hget hbad⟩) (hbefore _ hn)

/-- Not all functions without a spread argument can be curried: one has too many parameters. It is
selected all the same, and the run for the selection declares nothing. -/
theorem generate_curriable_wide :
    ∃ store, Store.ofRecords [.declare "add" 2, .declare "wide" 5] = .ok store
      ∧ Selection.curriable.resolve store = ["add", "wide"] ∧ store.curriedNames = ["add"]
      ∧ generate textDestination store {} (Selection.curriable.resolve store) ""
          = ("", .error (.signature (some "wide") (.alphabetExhausted "wide" 5))) := by
  have built : Store.ofRecords [.declare "add" 2, .declare "wide" 5] = .ok
      { functions := [("add", .declare "add" 2), ("wide", .declare "wide" 5)],
        names := ["add", "wide"] } :=
    Store.ofRecords_eq rfl (List.Perm.refl _) (by decide) rfl
  exact ⟨_, built, rfl, rfl, rfl⟩

/-- A function with a spread argument is left out, and what is left can be curried. -/
theorem curriableNames_verdict_spread :
    ∃ store, Store.ofRecords
        [{ name := "concat", arity := 2, spreadStart := some 1 },
          { name := "map", arity := 2, iterateeArity := some 1 }] = .ok store
      ∧ store.curriableNames = ["map"] ∧ store.curriedNames = ["map"]
      ∧ ∀ e, (generate textDestination store {} ["map"] "").2 = .error e →
          ∃ reason, e = .output reason := by
  have built : Store.ofRecords
        [{ name := "concat", arity := 2, spreadStart := some 1 },
          { name := "map", arity := 2, iterateeArity := some 1 }] = .ok
      { functions := [("concat", { name := "concat", arity := 2, spreadStart := some 1 }),
          ("map", { name := "map", arity := 2, iterateeArity := some 1 })],
        names := ["concat", "map"] } :=
    Store.ofRecords_eq rfl (List.Perm.refl _) (by decide) rfl
  obtain ⟨-, -, -, -, -, hruns⟩ := curriableNames_verdict built
  obtain ⟨hgood, -⟩ := hruns .sequential String textDestination {} "" trivial
  exact ⟨_, built, rfl, rfl, hgood rfl⟩

end CurriedTypings
