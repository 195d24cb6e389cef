import CurriedTypings.Proofs.ModeAgreement
import CurriedTypings.Proofs.PlanVariables
import CurriedTypings.Proofs.RecordAssembly
import CurriedTypings.Proofs.TableVerdict

/-!
# What a module exports

A block exports the name of its function and the function's aliases. That a module
exports nothing twice has three reasons:

- the aliases of one record are distinct, since settings only add new ones (`aliases_setAll`) and
  tables make their records by settings (`recordOf_eq_setAll`);
- an alias is no declared name, and it belongs to one record only (`BuiltFrom`);
- the functions of a selection are distinct.

The first is about how records are made, not about stores: a record given outright may
repeat an alias, and the store takes it. So the headline theorem `exports_distinct` is
about stores that are `Assembled`.
-/

namespace CurriedTypings

/-! ## The aliases of one record -/

namespace FunctionRecord

/-- A record that was declared and then given one property after the other. -/
def Assembled (f : FunctionRecord) : Prop :=
  ∃ name arity settings, f = (declare name arity).setAll settings

theorem Assembled.nodup_aliases {f : FunctionRecord} (h : f.Assembled) : f.aliases.Nodup := by
  obtain ⟨name, arity, settings, rfl⟩ := h
  rw [aliases_setAll]
  exact nodup_addNew List.nodup_nil _

end FunctionRecord

namespace Tables

/-- What the tables say about a function, as settings of its record. -/
def settingsOf (t : Tables) (aliases : Table (List String)) (name : String) :
    List FunctionRecord.Setting :=
  .aliases ((aliases.get? name).getD [])
    :: ((t.spreads.get? name).map fun s => .spreadStart s.start).toList
    ++ ((t.iterateeArities.get? name).map .iterateeArity).toList
    ++ ((t.returnShapes.get? name).map .returnShape).toList

theorem recordOf_eq_setAll (t : Tables) (aliases : Table (List String))
    (declaration : String × Nat) : t.recordOf aliases declaration
      = (FunctionRecord.declare declaration.1 declaration.2).setAll
          (t.settingsOf aliases declaration.1) := by
  unfold recordOf settingsOf
  cases t.spreads.get? declaration.1 <;> cases t.iterateeArities.get? declaration.1 <;>
    cases t.returnShapes.get? declaration.1 <;> rfl

theorem recordOf_assembled (t : Tables) (aliases : Table (List String))
    (declaration : String × Nat) : (t.recordOf aliases declaration).Assembled :=
  ⟨_, _, _, recordOf_eq_setAll t aliases declaration⟩

end Tables

/-- A store built from tables, or from records that were put together one property at a time. -/
inductive Store.Assembled (store : Store) : Prop
  | tables {t : Tables} (built : Store.ofTables t = .ok store)
  | records {records : List FunctionRecord} (assembled : ∀ f ∈ records, f.Assembled)
      (built : Store.ofRecords records = .ok store)

theorem Store.Assembled.builtFrom {store : Store} (h : store.Assembled) :
    ∃ records, BuiltFrom records store ∧ ∀ f ∈ records, f.aliases.Nodup := by
  cases h with
  | @tables t built =>
      rw [Tables.ofTables_eq, bind_eq_ok_iff] at built
      obtain ⟨declared, -, built⟩ := built
      obtain ⟨-, -, built⟩ := bind_eq_ok_iff.mp built
      refine ⟨_, builtFrom_ofRecords built, fun f hf => ?_⟩
      obtain ⟨declaration, -, rfl⟩ := List.mem_map.mp hf
      exact (Tables.recordOf_assembled t _ declaration).nodup_aliases
  | records assembled built =>
      exact ⟨_, builtFrom_ofRecords built, fun f hf => (assembled f hf).nodup_aliases⟩

/-! ## Prepared functions -/

namespace CurriedFunction

def exports (c : CurriedFunction) : List String := c.name :: c.aliases.map AliasBinding.name

structure Of (f : FunctionRecord) (c : CurriedFunction) : Prop where
  name : c.name = f.name
  aliases : c.aliases = f.aliasBindings
  overloads : c.overloads ≠ []

variable {f : FunctionRecord} {c : CurriedFunction}

theorem of_curried (h : f.curried = .ok c) : Of f c := by
  obtain ⟨hplan, hcurry, haliases⟩ := FunctionRecord.curried_eq_ok_iff.mp h
  obtain ⟨hslots, -, hoverloads⟩ := curry_eq_ok_iff.mp hcurry
  refine ⟨FunctionRecord.plan_name hplan, haliases, ?_⟩
  rw [hoverloads]
  cases hs : c.plan.slots with
  | nil => exact absurd hs hslots
  | cons s rest => exact List.cons_ne_nil _ _

namespace Of

variable (h : Of f c)

include h

theorem aliasNames : c.aliases.map AliasBinding.name = f.aliases := by
  rw [h.aliases, FunctionRecord.map_name_aliasBindings]

theorem exports_eq : c.exports = f.name :: f.aliases := by
  rw [exports, h.name, h.aliasNames]

theorem mem_aliases_iff {a n : String} : ⟨a, n⟩ ∈ c.aliases ↔ a ∈ f.aliases ∧ n = f.name := by
  rw [h.aliases, FunctionRecord.mem_aliasBindings_iff]

theorem target_eq {b : AliasBinding} (hb : b ∈ c.aliases) : b.target = c.name := by
  rw [h.name]
  exact (h.mem_aliases_iff.mp hb).2

/-- The block of a function, with each alias as a name for the function itself. -/
theorem functionBlock_eq (options : ModuleOptions) : Emitter.functionBlock options c
    = Line.renderAll 1 (Emitter.markerLine options c.name
        :: (c.overloads.map (Emitter.overloadLine c)
          ++ c.exports.tail.flatMap (fun a => Emitter.reexportLines options ⟨a, c.name⟩)
          ++ [.blank])) := by
  have haliases : c.aliases.flatMap (Emitter.reexportLines options)
      = c.exports.tail.flatMap fun a => Emitter.reexportLines options ⟨a, c.name⟩ := by
    rw [exports, List.tail_cons, List.flatMap_map]
    refine List.flatMap_congr fun b hb => ?_
    rw [← h.target_eq hb]
  rw [Emitter.functionBlock_eq, Emitter.functionLines, haliases]

end Of

end CurriedFunction

namespace Generation

variable {store : Store} {records : List FunctionRecord} {names : List String}
  {functions : List CurriedFunction}

/-- What is prepared under a name comes from the record of that name. -/
theorem of_prepareOne (built : Store.BuiltFrom records store) {name : String}
    {c : CurriedFunction} (h : prepareOne store name = .ok c) :
    ∃ f ∈ records, f.name = name ∧ CurriedFunction.Of f c := by
  obtain ⟨f, hget, hcurried⟩ := prepareOne_eq_ok_iff.mp h
  obtain ⟨hf, hname⟩ := built.get_eq_ok_iff.mp hget
  exact ⟨f, hf, hname, CurriedFunction.of_curried hcurried⟩

theorem of_prepare (built : Store.BuiltFrom records store)
    (h : prepare store names = .ok functions) :
    ∀ c ∈ functions, ∃ f ∈ records, CurriedFunction.Of f c := by
  intro c hc
  obtain ⟨name, -, hname⟩ := exists_of_mem_mapM h hc
  obtain ⟨f, hf, -, hof⟩ := of_prepareOne built hname
  exact ⟨f, hf, hof⟩

theorem map_name_of_prepare (built : Store.BuiltFrom records store)
    (h : prepare store names = .ok functions) : functions.map CurriedFunction.name = names := by
  have hname : ∀ n c, prepareOne store n = .ok c → c.name = id n := by
    intro n c hc
    obtain ⟨f, -, hname, hof⟩ := of_prepareOne built hc
    exact hof.name.trans hname
  have hnames := map_eq_map_of_mapM h hname
  rwa [List.map_id] at hnames

end Generation

open Generation

namespace Store.BuiltFrom

variable {store : Store} {records : List FunctionRecord} (built : BuiltFrom records store)

include built

/-- Two functions of different names export nothing in common: an alias is nobody's name, and
nobody else's alias. -/
theorem disjoint_exports {f g : FunctionRecord} (hf : f ∈ records) (hg : g ∈ records)
    (hne : f.name ≠ g.name) : List.Disjoint (f.name :: f.aliases) (g.name :: g.aliases) := by
  intro a ha ha'
  rcases List.mem_cons.mp ha with rfl | ha
  · rcases List.mem_cons.mp ha' with heq | ha'
    · exact hne heq
    · exact built.alias_undeclared hg ha' (List.mem_map_of_mem hf)
  · rcases List.mem_cons.mp ha' with rfl | ha'
    · exact built.alias_undeclared hf ha (List.mem_map_of_mem hg)
    · exact hne (congrArg FunctionRecord.name (built.alias_unique hf hg ha ha'))

theorem nodup_exports (once : ∀ f ∈ records, f.aliases.Nodup) {functions : List CurriedFunction}
    (hof : ∀ c ∈ functions, ∃ f ∈ records, CurriedFunction.Of f c)
    (distinct : (functions.map CurriedFunction.name).Nodup) :
    (functions.flatMap CurriedFunction.exports).Nodup := by
  rw [List.nodup_flatMap]
  constructor
  · intro c hc
    obtain ⟨f, hf, h⟩ := hof c hc
    rw [h.exports_eq]
    refine List.nodup_cons.mpr ⟨fun hname => ?_, once f hf⟩
    exact built.alias_undeclared hf hname (List.mem_map_of_mem hf)
  · refine (List.pairwise_map.mp distinct).imp_of_mem fun {c d} hc hd hne => ?_
    obtain ⟨f, hf, h⟩ := hof c hc
    obtain ⟨g, hg, h'⟩ := hof d hd
    show List.Disjoint c.exports d.exports
    rw [h.exports_eq, h'.exports_eq]
    exact built.disjoint_exports hf hg (h.name ▸ h'.name ▸ hne)

/-- The aliases that are exported are those that the store resolves to a selected function. -/
theorem exported_iff {names : List String} {functions : List CurriedFunction}
    (prepared : prepare store names = .ok functions) {a n : String} :
    (∃ c ∈ functions, ⟨a, n⟩ ∈ c.aliases) ↔ n ∈ names ∧ store.resolveAlias? a = some n := by
  have hof := of_prepare built prepared
  rw [← map_name_of_prepare built prepared, List.mem_map, built.resolveAlias?_eq_some_iff]
  constructor
  · rintro ⟨c, hc, hbinding⟩
    obtain ⟨f, hf, h⟩ := hof c hc
    obtain ⟨ha, rfl⟩ := h.mem_aliases_iff.mp hbinding
    exact ⟨⟨c, hc, h.name⟩, f, hf, rfl, ha⟩
  · rintro ⟨⟨c, hc, rfl⟩, g, hg, hname, ha⟩
    obtain ⟨f, hf, h⟩ := hof c hc
    obtain rfl := built.declares.name_injective hg hf (hname.trans h.name)
    exact ⟨c, hc, h.mem_aliases_iff.mpr ⟨ha, hname.symm⟩⟩

end Store.BuiltFrom

/-- **Nothing is exported twice.** Let a store be built from tables, or from records put together
one property at a time, and let distinct names be prepared. The identifiers that the blocks
export, each name once and then its aliases, are distinct. The text of the module is that of
its blocks between header and footer; each block declares the overloads of its function, of
which there are some, and then says of each alias that it stands for this very function. The
aliases exported are those that the store resolves to a selected function. -/
theorem exports_distinct {store : Store} (assembled : store.Assembled) {names : List String}
    (distinct : names.Nodup) {functions : List CurriedFunction}
    (prepared : prepare store names = .ok functions) :
    functions.map CurriedFunction.name = names
      ∧ (functions.flatMap CurriedFunction.exports).Nodup
      ∧ (∀ c ∈ functions, c.overloads ≠ [] ∧ ∀ b ∈ c.aliases, b.target = c.name)
      ∧ (∀ a n, (∃ c ∈ functions, ⟨a, n⟩ ∈ c.aliases) ↔
          n ∈ names ∧ store.resolveAlias? a = some n)
      ∧ ∀ options, ∃ definitions, continuationDefinitions = .ok definitions
          ∧ generateText store options names = .ok (String.join
              (opening options definitions
                :: (functions.map (fun c => Line.renderAll 1
                    (Emitter.markerLine options c.name
                      :: (c.overloads.map (Emitter.overloadLine c)
                        ++ c.exports.tail.flatMap
                            (fun a => Emitter.reexportLines options ⟨a, c.name⟩)
                        ++ [.blank])))
                  ++ [closing]))) := by
  obtain ⟨records, built, once⟩ := assembled.builtFrom
  have hof := of_prepare built prepared
  have hnames := map_name_of_prepare built prepared
  refine ⟨hnames, built.nodup_exports once hof (hnames.symm ▸ distinct), fun c hc => ?_,
    fun a n => built.exported_iff prepared, fun options => ?_⟩
  · obtain ⟨f, -, h⟩ := hof c hc
    exact ⟨h.overloads, fun b hb => h.target_eq hb⟩
  · obtain ⟨definitions, hd⟩ := continuationDefinitions_ok
    refine ⟨definitions, hd, ?_⟩
    rw [generateText_of_ok hd prepared, moduleChunks]
    refine congrArg (fun blocks => Except.ok (String.join (opening options definitions
      :: (blocks ++ [closing])))) (List.map_congr_left fun c hc => ?_)
    obtain ⟨f, -, h⟩ := hof c hc
    exact h.functionBlock_eq options

/-- Two of three functions, one with aliases that were given in two steps. -/
theorem exports_distinct_two :
    let add := (FunctionRecord.declare "add" 2).setAll
      [.aliases ["plus", "sum"], .aliases ["sum", "total"]]
    let records := [add, .declare "range" 3, .declare "zip" 2]
    ∃ store range added, Store.ofRecords records = .ok store
      ∧ store.Assembled ∧ ["range", "add"].Nodup
      ∧ prepare store ["range", "add"] = .ok [range, added]
      ∧ [range, added].flatMap CurriedFunction.exports = ["range", "add", "plus", "sum", "total"]
      ∧ ([range, added].flatMap CurriedFunction.exports).Nodup := by
  intro add records
  have built : Store.ofRecords records = .ok
      { functions := records.map fun f => (f.name, f),
        aliasIndex := [("plus", "add"), ("sum", "add"), ("total", "add")],
        names := ["add", "range", "zip"] } := Store.ofRecords_eq rfl (.refl _) (by decide) rfl
  have assembled : ∀ f ∈ records, f.Assembled := by
    simp only [records, List.forall_mem_cons]
    exact ⟨⟨"add", 2, _, rfl⟩, ⟨"range", 3, [], rfl⟩, ⟨"zip", 2, [], rfl⟩, nofun⟩
  have distinct : ["range", "add"].Nodup := by decide
  refine ⟨_, _, _, built, .records assembled built, distinct, rfl, rfl, ?_⟩
  exact (exports_distinct (.records assembled built) distinct rfl).2.1

end CurriedTypings
