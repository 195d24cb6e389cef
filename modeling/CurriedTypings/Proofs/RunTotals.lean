import CurriedTypings.Proofs.Exports
import CurriedTypings.Proofs.Independence

/-!
# The totals of a run

A run counts the functions, overloads and alias bindings that it has curried. The same
amounts are found at both of its ends:

- in the metadata, since a function has as many overloads as its record declares
  arguments, which takes planning and currying together (`length_overloads`), and has the
  aliases of its record;
- in the module, since every overload and every alias has a statement of its own there,
  and no other statement exports anything (`countP_moduleLines`).

Both modes end well under the same circumstances and with the same report
(`Mode.run_eq_ok_iff`), so the totals need not be followed through either of them.
-/

namespace CurriedTypings

/-! ## Exports among the lines of a module -/

/-- Whether a line is a statement that exports something introduced by this keyword. -/
def Line.exportsWith (keyword : String) : Line → Bool
  | statement _ text => text.startsWith ("export " ++ keyword ++ " ")
  | blank => false

namespace Line

variable (keyword : String)

/-- Lists of characters are told apart by the first in which they differ. -/
@[simp] theorem exportsWith_statement (depth : Nat) (text : String) :
    (statement depth text).exportsWith keyword
      = ("export " ++ keyword ++ " ").toList.isPrefixOf text.toList := by
  rw [Bool.eq_iff_iff, List.isPrefixOf_iff_prefix]
  exact String.startsWith_string_iff

@[simp] theorem exportsWith_blank : blank.exportsWith keyword = false := rfl

@[simp] theorem exportsWith_deeper (l : Line) :
    l.deeper.exportsWith keyword = l.exportsWith keyword := by
  cases l <;> rfl

end Line

namespace Emitter

variable (options : ModuleOptions)

/-- No helper type is exported. -/
theorem countP_helperLines (keyword : String) (definitions : List ContinuationDefinition) :
    (helperLines definitions).countP (Line.exportsWith keyword) = 0 := by
  have hcontainers : containerLines.countP (Line.exportsWith keyword) = 0 := by
    simp [containerLines, statementLines, objectName, collectionName]
  have hcontinuation : ∀ d, (continuationLines d).countP (Line.exportsWith keyword) = 0 := by
    simp [continuationLines, Overload.signature]
  have hcallback : ∀ k, (callbackLine k).exportsWith keyword = false := by
    simp [callbackLine, List.isPrefixOf]
  simp [helperLines, List.countP_flatMap, hcontainers, hcontinuation, hcallback, Function.comp_def]

theorem exportsWith_markerLine (keyword name : String) :
    (markerLine options name).exportsWith keyword = false := by
  simp [markerLine, List.isPrefixOf]

theorem exportsWith_overloadLine (c : CurriedFunction) (o : Overload) :
    (overloadLine c o).exportsWith "function" = true
      ∧ (overloadLine c o).exportsWith "const" = false := by
  simp [overloadLine, List.isPrefixOf]

theorem countP_reexportLines (b : AliasBinding) :
    (reexportLines options b).countP (Line.exportsWith "function") = 0
      ∧ (reexportLines options b).countP (Line.exportsWith "const") = 1 := by
  simp [reexportLines, exportsWith_markerLine]

/-- A block has one exporting statement for each overload and one for each alias. -/
theorem countP_functionLines (c : CurriedFunction) :
    (functionLines options c).countP (Line.exportsWith "function") = c.overloads.length
      ∧ (functionLines options c).countP (Line.exportsWith "const") = c.aliases.length := by
  simp [functionLines, List.countP_append, List.countP_map, List.countP_flatMap,
    exportsWith_markerLine, exportsWith_overloadLine, countP_reexportLines, Function.comp_def]

/-- What a module exports is exported by the blocks of its functions. -/
theorem countP_moduleLines (definitions : List ContinuationDefinition)
    (functions : List CurriedFunction) :
    (moduleLines options definitions functions).countP (Line.exportsWith "function")
        = (functions.map fun c => c.overloads.length).sum
      ∧ (moduleLines options definitions functions).countP (Line.exportsWith "const")
        = (functions.map fun c => c.aliases.length).sum := by
  have hheader : ∀ keyword, (headerLine options).exportsWith keyword = false := by
    simp [headerLine, List.isPrefixOf]
  have hfooter : ∀ keyword, footerLine.exportsWith keyword = false := by
    simp [footerLine, List.isPrefixOf]
  simp [moduleLines, List.countP_map, List.countP_append, List.countP_flatMap, hheader, hfooter,
    countP_helperLines, countP_functionLines, Function.comp_def]

end Emitter

/-! ## Counting what has been curried -/

theorem Report.total_eq (functions : List CurriedFunction) : Report.total functions
    = ⟨functions.length, (functions.map fun c => c.overloads.length).sum,
        (functions.map fun c => c.aliases.length).sum⟩ := by
  induction functions with
  | nil => rfl
  | cons c functions ih =>
      rw [total, List.foldl_cons, foldl_add, ih, add_def]
      simp [add, Nat.add_comm]

/-- A function has one overload for each argument that its record declares. -/
theorem FunctionRecord.length_overloads {f : FunctionRecord} {c : CurriedFunction}
    (h : f.curried = .ok c) : c.overloads.length = f.arity := by
  obtain ⟨hplan, hcurry, -⟩ := curried_eq_ok_iff.mp h
  obtain ⟨hplannable, hplanned⟩ := plan_eq_ok_iff.mp hplan
  obtain ⟨-, -, hoverloads⟩ := curry_eq_ok_iff.mp hcurry
  rw [hoverloads, length_overloadsFrom, hplanned]
  exact length_layout hplannable.fewEnough

theorem FunctionRecord.length_aliases {f : FunctionRecord} {c : CurriedFunction}
    (h : f.curried = .ok c) : c.aliases.length = f.aliases.length := by
  rw [← (CurriedFunction.of_curried h).aliasNames, List.length_map]

namespace Generation

variable {store : Store} {names : List String} {functions : List CurriedFunction}

/-- Functions are prepared from the records found under their names. -/
theorem exists_records_of_prepare : ∀ {names : List String} {functions : List CurriedFunction},
    prepare store names = .ok functions → ∃ declared, names.mapM store.get = .ok declared
      ∧ declared.mapM FunctionRecord.curried = .ok functions
  | [], functions, h => by
      obtain rfl := Except.ok.inj h
      exact ⟨[], rfl, rfl⟩
  | name :: names, functions, h => by
      rw [prepare, List.mapM_cons, bind_eq_ok_iff] at h
      obtain ⟨c, hc, h⟩ := h
      obtain ⟨rest, hrest, h⟩ := bind_eq_ok_iff.mp h
      obtain rfl := Except.ok.inj h
      obtain ⟨f, hget, hcurried⟩ := prepareOne_eq_ok_iff.mp hc
      obtain ⟨declared, hdeclared, hall⟩ := exists_records_of_prepare hrest
      refine ⟨f :: declared, ?_, ?_⟩
      · rw [List.mapM_cons, hget, bind_ok, hdeclared]
        rfl
      · rw [List.mapM_cons, hcurried, bind_ok, hall]
        rfl

/-- The totals of a run in terms of the records it was asked for. -/
theorem total_eq_of_records {declared : List FunctionRecord}
    (h : declared.mapM FunctionRecord.curried = .ok functions) :
    Report.total functions = ⟨declared.length, (declared.map FunctionRecord.arity).sum,
      (declared.map fun f => f.aliases.length).sum⟩ := by
  rw [Report.total_eq, ← (mapM_eq_ok_iff.mp h).length_eq,
    map_eq_map_of_mapM h fun f c => FunctionRecord.length_overloads,
    map_eq_map_of_mapM h fun f c => FunctionRecord.length_aliases]

/-- A run ends well if all functions are prepared and the destination accepts the module. -/
theorem Mode.run_eq_ok_iff {σ : Type} {mode : Mode} (covers : mode.Covers names)
    {d : Destination σ} {options : ModuleOptions} {s s' : σ} {report : Report} :
    mode.run d store options names s = (s', .ok report) ↔
      ∃ definitions functions, continuationDefinitions = .ok definitions
        ∧ prepare store names = .ok functions
        ∧ d.performAll (mode.ops options definitions functions) s = (s', none)
        ∧ report = Report.total functions := by
  obtain ⟨definitions, hd⟩ := continuationDefinitions_ok
  cases hprepared : prepare store names with
  | error e =>
      rw [run_of_error covers hprepared]
      constructor
      · intro h
        cases (Prod.mk.inj h).2
      · rintro ⟨-, functions, -, h, -⟩
        cases h
  | ok functions =>
      rw [run_of_ok covers hd hprepared, Destination.deliver_eq_ok_iff]
      constructor
      · rintro ⟨haccepted, hreport⟩
        exact ⟨definitions, functions, hd, rfl, haccepted, hreport⟩
      · rintro ⟨definitions', functions', hd', hprepared', haccepted, hreport⟩
        obtain rfl := Except.ok.inj (hd.symm.trans hd')
        obtain rfl := Except.ok.inj hprepared'
        exact ⟨haccepted, hreport⟩

end Generation

open Generation

/-- **The totals of a run are exact.** Let a run of either mode to any destination end well. Each
name it was given has a record, which is one of those the store was built from, or what the
tables it was built from describe. The report counts the names, each as often as it was given,
and adds up the arities of the records and the lengths of their alias lists. What the
destination was asked to write is the header, a block for each function and the footer, and their
lines are those of the module; the report has the number of these blocks, of the lines that
export a function and of the lines that export a constant. -/
theorem run_totals {σ : Type} {mode : Mode} {names : List String} (covers : mode.Covers names)
    {d : Destination σ} {store : Store} {options : ModuleOptions} {s s' : σ} {report : Report}
    (success : mode.run d store options names s = (s', .ok report)) :
    ∃ declared functions definitions ops,
      names.mapM store.get = .ok declared
      ∧ (∀ records, Store.ofRecords records = .ok store →
          List.Forall₂ (fun name f => f ∈ records ∧ f.name = name) names declared)
      ∧ (∀ t : Tables, Store.ofTables t = .ok store →
          List.Forall₂ (fun name f => ∃ arity, t.Caps name arity
            ∧ t.recordOf t.aliasesByTarget (name, arity) = f) names declared)
      ∧ report = ⟨names.length, (declared.map FunctionRecord.arity).sum,
          (declared.map fun f => f.aliases.length).sum⟩
      ∧ prepare store names = .ok functions
      ∧ continuationDefinitions = .ok definitions
      ∧ mode.run d.traced store options names (s, []) = ((s', ops), .ok report)
      ∧ OutputOp.chunks ops = opening options definitions
          :: (functions.map (Emitter.functionBlock options) ++ [closing])
      ∧ OutputOp.writtenText ops
          = Line.renderAll 0 (Emitter.moduleLines options definitions functions)
      ∧ functions.length = report.functions
      ∧ (Emitter.moduleLines options definitions functions).countP (Line.exportsWith "function")
          = report.overloads
      ∧ (Emitter.moduleLines options definitions functions).countP (Line.exportsWith "const")
          = report.aliases := by
  obtain ⟨definitions, functions, hd, hprepared, haccepted, rfl⟩ :=
    (Mode.run_eq_ok_iff covers).mp success
  obtain ⟨declared, hdeclared, hcurried⟩ := exists_records_of_prepare hprepared
  have hget := mapM_eq_ok_iff.mp hdeclared
  have hchunks := Mode.chunks_ops mode options definitions functions
  obtain ⟨hoverloads, haliases⟩ := Emitter.countP_moduleLines options definitions functions
  have htotal := Report.total_eq functions
  refine ⟨declared, functions, definitions, mode.ops options definitions functions, hdeclared,
    ?_, ?_, ?_, hprepared, hd, ?_, hchunks, ?_, ?_, ?_, ?_⟩
  · exact fun records built => hget.imp fun name f hf =>
      (Store.builtFrom_ofRecords built).get_eq_ok_iff.mp hf
  · exact fun t built => hget.imp fun name f hf => (Store.get_eq_ok_iff_of_ofTables built).mp hf
  · rw [total_eq_of_records hcurried, hget.length_eq]
  · exact (Mode.run_eq_ok_iff covers).mpr ⟨definitions, functions, hd, hprepared,
      Destination.performAll_traced haccepted [], rfl⟩
  · rw [OutputOp.writtenText_eq_join, hchunks, ← module_eq_join, Emitter.module_eq_put]
    exact String.empty_append
  · rw [htotal]
  · rw [hoverloads, htotal]
  · rw [haliases, htotal]

/-- One of two functions is asked for twice, and counts twice with its aliases. -/
theorem run_totals_repeated :
    let add : FunctionRecord := { name := "add", arity := 2, aliases := ["plus", "sum"] }
    let names := ["add", "range", "add"]
    ∃ store text report, Store.ofRecords [add, .declare "range" 3] = .ok store
      ∧ (Mode.parallel [2, 0, 1]).Covers names
      ∧ (Mode.parallel [2, 0, 1]).run textDestination store {} names "" = (text, .ok report)
      ∧ report = { functions := 3, overloads := 7, aliases := 4 } := by
  intro add names
  let store : Store :=
    { functions := [("add", add), ("range", .declare "range" 3)],
      aliasIndex := [("plus", "add"), ("sum", "add")], names := ["add", "range"] }
  have built : Store.ofRecords [add, .declare "range" 3] = .ok store :=
    Store.ofRecords_eq rfl (.refl _) (by decide) rfl
  have covers : (Mode.parallel [2, 0, 1]).Covers names :=
    show [2, 0, 1].Perm (List.range 3) by decide
  obtain ⟨definitions, hd⟩ := continuationDefinitions_ok
  have hprepared : ∃ functions, prepare store names = .ok functions := ⟨_, rfl⟩
  obtain ⟨functions, prepared⟩ := hprepared
  have success := (Mode.run_of_ok covers hd prepared textDestination {} "").trans
    (Destination.deliver_traced textDestination_reliable _ _ "").2
  obtain ⟨declared, -, -, -, hdeclared, -, -, hreport, -⟩ := run_totals covers success
  obtain rfl := Except.ok.inj hdeclared
  exact ⟨_, _, _, built, covers, success, hreport⟩

end CurriedTypings
