import CurriedTypings.Proofs.CommandRuns
import CurriedTypings.Proofs.FirstDefect

/-!
# Runs for declarations

A run for declarations goes through its names twice. Before anything is planned, every name has
to be declared (`checkSelection`); the generation then looks up each name again, and plans and
curries its record. So a name that is not declared is reported even if an earlier name has a
record that cannot be curried. In the generation itself it would be the earlier name.

The check fails if and only if some name is not declared, and what it reports is about the first
such name (`FirstUndeclared`, `reportsUndeclared`). Behind the check every look-up of
the generation succeeds, and only two things are left that can go wrong: a record that cannot be
curried, of which the first is reported (`prepare_declared_cases`), and the output.

`declareSelected` is a run for any store and any names. With the store that a run has loaded and
the names it selects from it, it is this run (`attempt_eq_declareSelected`).
-/

namespace CurriedTypings.CommandLine

open Generation

variable {a : Arguments} {records : List FunctionRecord} {store : Store} {names : List String}
  {name : String}

/-! ## A run with its store and its names -/

/-- All that a run does once it has a store and names. -/
def declareSelected {m : Type → Type} [Monad m] (sys : System m) (a : Arguments) (store : Store)
    (names : List String) : m (Except Failure Summary) :=
  conclude sys a (renderSelected a store names)

variable {d : Destination String} {s s' : Session} {f : Failure}

theorem attempt_eq_declareSelected (docs : a.docs = none) (loads : Loads a s.files store) :
    attempt (Session.systemWith d) a s
      = declareSelected (Session.systemWith d) a store (a.selection.resolve store) s := by
  rw [attempt_eq_conclude, loads.render docs, declareSelected]

/-! ## The check -/

theorem aliasNote_inj {target target' : String} :
    aliasNote name target = aliasNote name target' ↔ target = target' := by
  simp [aliasNote]

theorem checkSelection_eq_ok_iff :
    checkSelection store names = .ok () ↔ ∀ n ∈ names, store.contains n := by
  refine ⟨fun hcheck => ?_, checkSelection_of_declared⟩
  rcases declared_or_firstUndeclared store names with hdeclared | ⟨name, hfirst⟩
  · exact hdeclared
  · exact nomatch hcheck.symm.trans (checkSelection_of_firstUndeclared hfirst)

theorem checkSelection_eq_error_iff :
    checkSelection store names = .error f ↔ ∃ name, FirstUndeclared store names name
      ∧ f = ⟨(store.resolveAlias? name).toList.map (aliasNote name),
          .metadata (.undeclaredFunction name)⟩ := by
  constructor
  · intro h
    rcases declared_or_firstUndeclared store names with hdeclared | ⟨name, hfirst⟩
    · rw [checkSelection_of_declared hdeclared] at h
      cases h
    · rw [checkSelection_of_firstUndeclared hfirst] at h
      exact ⟨name, hfirst, (Except.error.inj h).symm⟩
  · rintro ⟨name, hfirst, rfl⟩
    exact checkSelection_of_firstUndeclared hfirst

/-- What is reported of a name that is not declared: a configuration error in this name, with one
note that names the target if it is an alias in these records, and else with none. -/
structure ReportsUndeclared (records : List FunctionRecord) (name : String) (report : Diagnostic) :
    Prop where
  kind : report.kind = .configuration
  function : report.function = some name
  message : report.message = (MetadataError.undeclaredFunction name).message
  aliased : ∀ target, report.notes = [aliasNote name target] ↔
    ∃ g ∈ records, g.name = target ∧ name ∈ g.aliases
  unaliased : report.notes = [] ↔ ∀ g ∈ records, name ∉ g.aliases

theorem reportsUndeclared (built : Store.BuiltFrom records store) (name : String) :
    ∃ report, Diagnostic.ofChain?
        (Failure.chain ⟨(store.resolveAlias? name).toList.map (aliasNote name),
          .metadata (.undeclaredFunction name)⟩) = some report
      ∧ ReportsUndeclared records name report := by
  have hresolve : ∀ target, store.resolveAlias? name = some target ↔
      ∃ g ∈ records, g.name = target ∧ name ∈ g.aliases := fun _ => built.resolveAlias?_eq_some_iff
  refine ⟨_, Failure.ofChain?_chain_of_kind? rfl, rfl, rfl, rfl, fun target => ?_, ?_⟩
  · rw [← hresolve]
    cases store.resolveAlias? name with
    | none => exact ⟨nofun, nofun⟩
    | some other => simp [aliasNote_inj]
  · cases halias : store.resolveAlias? name with
    | none =>
        refine ⟨fun _ g hg hname => ?_, fun _ => rfl⟩
        exact nomatch halias.symm.trans ((hresolve _).mpr ⟨g, hg, rfl, hname⟩)
    | some target =>
        obtain ⟨g, hg, -, hname⟩ := (hresolve _).mp halias
        exact ⟨nofun, fun h => absurd hname (h g hg)⟩

/-! ## Behind the check -/

/-- The first name whose record cannot be curried, and why. -/
structure FirstUncurriable (store : Store) (names : List String) (name : String)
    (e : SignatureError) : Prop where
  fails : ∃ f, store.get name = .ok f ∧ f.curried = .error e
  first : ∃ before after, names = before ++ name :: after
    ∧ ∀ n ∈ before, ∃ f c, store.get n = .ok f ∧ f.curried = .ok c

theorem FirstUncurriable.prepare {e : SignatureError} (h : FirstUncurriable store names name e) :
    Generation.prepare store names = .error (.signature (some name) e) := by
  obtain ⟨⟨f, hget, hcurried⟩, before, after, hnames, hbefore⟩ := h
  refine mapM_eq_error_iff.mpr ⟨before, name, after, hnames, fun n hn => ?_, ?_⟩
  · obtain ⟨g, c, hg, hc⟩ := hbefore n hn
    exact ⟨c, prepareOne_eq_ok_iff.mpr ⟨g, hg, hc⟩⟩
  · rw [prepareOne_of_ok hget, hcurried]
    rfl

/-- Names that are all declared are prepared, unless the record of one of them cannot be
curried. -/
theorem prepare_declared_cases (declared : ∀ n ∈ names, store.contains n) :
    (∃ functions, prepare store names = .ok functions)
      ∨ ∃ name e, FirstUncurriable store names name e := by
  rcases mapM_cases (prepareOne store) names with
    ⟨functions, hok, -⟩ | ⟨before, name, after, e, rfl, hbefore, hname, -⟩
  · exact Or.inl ⟨functions, hok⟩
  · obtain ⟨f, hf⟩ := Option.isSome_iff_exists.mp (declared name (by simp))
    have hget : store.get name = .ok f := by rw [Store.get, Store.get?, hf]
    rw [prepareOne_of_ok hget] at hname
    cases hcurried : f.curried with
    | ok c => rw [hcurried] at hname; cases hname
    | error err =>
        refine Or.inr ⟨name, err, ⟨f, hget, hcurried⟩, before, after, rfl, fun n hn => ?_⟩
        obtain ⟨c, hc⟩ := hbefore n hn
        obtain ⟨g, hg, hc⟩ := prepareOne_eq_ok_iff.mp hc
        exact ⟨g, c, hg, hc⟩

/-- Behind the check a generation fails of the first record that cannot be curried, or of the
output. -/
theorem run_error_of_declared (declared : ∀ n ∈ names, store.contains n) {mode : Mode}
    (covers : mode.Covers names) {σ : Type} {d : Destination σ} {options : ModuleOptions} {s : σ}
    {e : GenerationError} (h : (mode.run d store options names s).2 = .error e) :
    (∃ reason, e = .output reason)
      ∨ ∃ name err, FirstUncurriable store names name err ∧ e = .signature (some name) err := by
  rcases prepare_declared_cases declared with ⟨functions, hok⟩ | ⟨name, err, hfirst⟩
  · obtain ⟨definitions, hd⟩ := continuationDefinitions_ok
    rw [Mode.run_of_ok covers hd hok] at h
    exact Or.inl (Destination.deliver_error h)
  · rw [Mode.run_of_error covers hfirst.prepare] at h
    exact Or.inr ⟨name, err, hfirst, (Except.error.inj h).symm⟩

/-- Failures of the output have no class. -/
theorem WriteFails.unclassified {text : String} (h : WriteFails d a s text f s') :
    Diagnostic.ofChain? f.chain = none := by
  refine Failure.ofChain?_chain_of_unclassified ?_
  cases h with
  | file outFile fails =>
      rcases Session.writeFile_cases fails with ⟨hok, -⟩ | ⟨context, e, herror, -⟩
      · cases hok
      · obtain rfl := Except.error.inj herror
        rfl
  | stdout =>
      rw [Arguments.printFailure]
      split <;> rfl

theorem declareSelected_error_of_declared (declared : ∀ n ∈ names, store.contains n)
    (h : declareSelected (Session.systemWith d) a store names s = (.error f, s')) :
    (∃ text, generateText store a.options names = .ok text ∧ WriteFails d a s text f s')
      ∨ ∃ name err, FirstUncurriable store names name err
        ∧ f = ⟨[], .generation (.signature (some name) err)⟩ ∧ s' = s := by
  rcases prepare_declared_cases declared with ⟨functions, hok⟩ | ⟨name, err, hfirst⟩
  · obtain ⟨definitions, hd⟩ := continuationDefinitions_ok
    rw [declareSelected, renderSelected_of_prepared declared hd hok, conclude_ok] at h
    rcases hdeliver : deliver (Session.systemWith d) a
      ((a.mode names).ops a.options definitions functions) s with ⟨result, after⟩
    rw [hdeliver] at h
    obtain ⟨hresult, rfl⟩ := Prod.mk.inj h
    cases result with
    | ok _ => cases hresult
    | error f' =>
        obtain rfl := Except.error.inj hresult
        refine Or.inl ⟨_, ?_, writeFails_of_deliver hdeliver⟩
        rw [generateText_of_ok hd hok, OutputOp.writtenText_eq_join, Mode.chunks_ops]
  · rw [declareSelected, renderSelected_of_uncurriable declared hfirst.prepare,
      conclude_error] at h
    obtain ⟨hf, rfl⟩ := Prod.mk.inj h
    exact Or.inr ⟨name, err, hfirst, (Except.error.inj hf).symm, rfl⟩

/-! ## Runs -/

/-- **The check comes first, and then only records and the output can fail.** Take a store built
from records, and names. The check fails if and only if some name is not declared. The run then
fails with what the check says and leaves the session as it was; its report is about the first
name that is not declared, with a note if this name is an alias, whatever the records of the names
before it are. If the check passes, both modes fail of the first name whose record cannot be
curried, if there is one, and any other failure is one of the output; the metadata is not reported
again. In the same way a run fails with this name in its report, or else because the generated
text could not be written, of which there is no report. Every run for declarations is such a
run. -/
theorem declarations_first_refusal {records : List FunctionRecord} {store : Store}
    (built : Store.ofRecords records = .ok store) (a : Arguments) (names : List String) :
    ((∃ f, checkSelection store names = .error f) ↔ ∃ n ∈ names, n ∉ store.names)
      ∧ (∀ f, checkSelection store names = .error f →
          (∀ d s, declareSelected (Session.systemWith d) a store names s = (.error f, s))
            ∧ ∃ name report, FirstUndeclared store names name
              ∧ Diagnostic.ofChain? f.chain = some report
              ∧ ReportsUndeclared records name report)
      ∧ (checkSelection store names = .ok () →
          (∀ (mode : Mode) (σ : Type) (d : Destination σ) (options : ModuleOptions) (s : σ),
            mode.Covers names →
              (∀ name err, FirstUncurriable store names name err →
                mode.run d store options names s = (s, .error (.signature (some name) err)))
              ∧ ∀ e, (mode.run d store options names s).2 = .error e →
                (∃ reason, e = .output reason) ∨ ∃ name err,
                  FirstUncurriable store names name err ∧ e = .signature (some name) err)
          ∧ ∀ d s s' f, declareSelected (Session.systemWith d) a store names s = (.error f, s') →
              (Diagnostic.ofChain? f.chain = none
                ∧ ∃ text, generateText store a.options names = .ok text
                  ∧ WriteFails d a s text f s')
              ∨ ∃ name err, FirstUncurriable store names name err ∧ s' = s
                ∧ Diagnostic.ofChain? f.chain = some
                    { kind := err.kind, function := some name, message := err.message })
      ∧ ∀ d s, a.docs = none → Loads a s.files store → a.selection.resolve store = names →
          attempt (Session.systemWith d) a s
            = declareSelected (Session.systemWith d) a store names s := by
  have hbuilt := Store.builtFrom_ofRecords built
  refine ⟨⟨?_, ?_⟩, fun f hf => ?_, fun hcheck => ⟨?_, ?_⟩, ?_⟩
  · rintro ⟨f, hf⟩
    obtain ⟨name, ⟨hunknown, before, after, rfl, -⟩, -⟩ := checkSelection_eq_error_iff.mp hf
    refine ⟨name, by simp, fun hmem => ?_⟩
    rw [hbuilt.contains_iff.mpr hmem] at hunknown
    cases hunknown
  · rintro ⟨n, hn, hundeclared⟩
    cases hcheck : checkSelection store names with
    | error f => exact ⟨f, rfl⟩
    | ok =>
        have hdeclared := checkSelection_eq_ok_iff.mp hcheck n hn
        exact absurd (hbuilt.contains_iff.mp hdeclared) hundeclared
  · obtain ⟨name, hfirst, rfl⟩ := checkSelection_eq_error_iff.mp hf
    obtain ⟨report, hreport, hreports⟩ := reportsUndeclared hbuilt name
    refine ⟨fun d s => ?_, name, report, hfirst, hreport, hreports⟩
    rw [declareSelected, renderSelected_of_firstUndeclared hfirst, conclude_error]
  · exact fun mode σ d options s covers =>
      ⟨fun name err hfirst => Mode.run_of_error covers hfirst.prepare d options s,
        fun e => run_error_of_declared (checkSelection_eq_ok_iff.mp hcheck) covers⟩
  · intro d s s' f hfailed
    rcases declareSelected_error_of_declared (checkSelection_eq_ok_iff.mp hcheck) hfailed with
      ⟨text, htext, hfails⟩ | ⟨name, err, hfirst, rfl, hs⟩
    · exact Or.inl ⟨hfails.unclassified, text, htext, hfails⟩
    · exact Or.inr ⟨name, err, hfirst, hs, Failure.ofChain?_chain_of_kind? rfl⟩
  · rintro d s docs loads rfl
    exact attempt_eq_declareSelected docs loads

/-- A name whose record cannot be curried stands before an alias and before a name that is not
known at all. The alias is reported, and with declared names the one that cannot be curried. -/
theorem declarations_first_refusal_alias :
    let map : FunctionRecord :=
      { name := "map", arity := 2, aliases := ["collect"], iterateeArity := some 1 }
    ∃ store, Store.ofRecords [map, .declare "wide" 5] = .ok store
      ∧ (∃ f report, checkSelection store ["wide", "collect", "none"] = .error f
        ∧ declareSelected Session.system {} store ["wide", "collect", "none"] {} = (.error f, {})
        ∧ Diagnostic.ofChain? f.chain = some report ∧ report.function = some "collect"
        ∧ report.notes = [aliasNote "collect" "map"])
      ∧ checkSelection store ["map", "wide"] = .ok ()
      ∧ Mode.sequential.run textDestination store {} ["map", "wide"] ""
        = ("", .error (.signature (some "wide") (.alphabetExhausted "wide" 5))) := by
  intro map
  have built : Store.ofRecords [map, .declare "wide" 5] = .ok
      { functions := [("map", map), ("wide", .declare "wide" 5)],
        aliasIndex := [("collect", "map")], names := ["map", "wide"] } :=
    Store.ofRecords_eq rfl (List.Perm.refl _) (by decide) rfl
  refine ⟨_, built, ?_, rfl, ?_⟩
  · obtain ⟨hfails, hreports, -, -⟩ :=
      declarations_first_refusal built {} ["wide", "collect", "none"]
    obtain ⟨f, hf⟩ := hfails.mpr ⟨"none", by decide, by decide⟩
    obtain ⟨hrun, name, report, -, hreport, hreported⟩ := hreports f hf
    obtain rfl : "collect" = name := by
      obtain rfl := Except.error.inj hf
      obtain rfl := Option.some.inj hreport
      exact Option.some.inj hreported.function
    exact ⟨f, report, hf, hrun _ _, hreport, hreported.function,
      (hreported.aliased "map").mpr ⟨map, by simp, rfl, by decide⟩⟩
  · obtain ⟨-, -, hpassed, -⟩ := declarations_first_refusal built {} ["map", "wide"]
    refine ((hpassed rfl).1 .sequential _ textDestination {} "" trivial).1 _ _ ⟨⟨_, rfl, rfl⟩, ?_⟩
    refine ⟨["map"], [], rfl, fun n hn => ?_⟩
    obtain rfl := List.mem_singleton.mp hn
    exact ⟨_, _, rfl, rfl⟩

end CurriedTypings.CommandLine
