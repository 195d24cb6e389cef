import CurriedTypings.Proofs.Interruption
import CurriedTypings.Proofs.TableVerdict

/-!
# Functions do not interfere

What is declared for a function depends on what the tables say about this function, and
on nothing else. `AgreeOn` lists what that is: the arity its key stands for, its aliases,
the start of its spread argument, the arity of its callback and its return shape. There
are three steps from the tables to the output, and each of them looks at one function at
a time:

- a store built from tables has under a listed name the record that the tables describe
  (`get_eq_ok_iff_of_ofTables`), so two tables that agree on a name have the same record for it;
- names are prepared one after the other (`prepare_append`, `prepare_congr`);
- `blocks` and `totals` are read off the functions that have been prepared, and are what
  a run writes between header and footer and what it reports (`run_blocks`).
-/

namespace CurriedTypings

/-! ## Records -/

theorem ArityKey.Denotes.unique {key : String} {m n : Nat} (hm : ArityKey.Denotes key m)
    (hn : ArityKey.Denotes key n) : m = n :=
  Option.some.inj ((read?_eq_some_iff.mpr hm).symm.trans (read?_eq_some_iff.mpr hn))

namespace Tables

def Caps (t : Tables) (name : String) (arity : Nat) : Prop :=
  ∃ key names, (key, names) ∈ t.groups ∧ name ∈ names ∧ ArityKey.Denotes key arity

/-- Both tables list a function, and what they say about it is the same. -/
structure AgreeOn (t u : Tables) (name : String) : Prop where
  arity : ∃ n, t.Caps name n ∧ u.Caps name n
  aliases : (t.aliasesByTarget.get? name).getD [] = (u.aliasesByTarget.get? name).getD []
  spreadStart : (t.spreads.get? name).map Spread.start = (u.spreads.get? name).map Spread.start
  iterateeArity : t.iterateeArities.get? name = u.iterateeArities.get? name
  returnShape : t.returnShapes.get? name = u.returnShapes.get? name

theorem mem_entriesOf {arity n : Nat} {name : String} {names : List String} :
    (name, n) ∈ entriesOf arity names ↔ name ∈ names ∧ n = arity := by
  rw [entriesOf, List.mem_map]
  constructor
  · rintro ⟨a, ha, heq⟩
    obtain ⟨rfl, rfl⟩ := Prod.mk.inj heq
    exact ⟨ha, rfl⟩
  · rintro ⟨hname, rfl⟩
    exact ⟨name, hname, rfl⟩

/-- A function is listed with the arities that the keys of its groups stand for. -/
theorem Lists.mem_iff {groups : Table (List String)} {listed : Table Nat} (h : Lists groups listed)
    {name : String} {arity : Nat} : (name, arity) ∈ listed ↔
      ∃ key names, (key, names) ∈ groups ∧ name ∈ names ∧ ArityKey.Denotes key arity := by
  induction h with
  | nil => simp
  | @cons key names _ groups listed head rest ih =>
      rw [List.mem_append, mem_entriesOf, ih]
      constructor
      · rintro (⟨hname, rfl⟩ | ⟨key', names', hgroup, hname, hdenotes⟩)
        · exact ⟨key, names, List.mem_cons_self, hname, head⟩
        · exact ⟨key', names', List.mem_cons_of_mem _ hgroup, hname, hdenotes⟩
      · rintro ⟨key', names', hgroup, hname, hdenotes⟩
        rcases List.mem_cons.mp hgroup with heq | hgroup
        · obtain ⟨rfl, rfl⟩ := Prod.mk.inj heq
          exact Or.inl ⟨hname, hdenotes.unique head⟩
        · exact Or.inr ⟨key', names', hgroup, hname, hdenotes⟩

end Tables

/-- A store has under a listed name what the tables describe, and nothing under other names. -/
theorem Store.get_eq_ok_iff_of_ofTables {t : Tables} {s : Store} (built : Store.ofTables t = .ok s)
    {name : String} {f : FunctionRecord} : s.get name = .ok f ↔
      ∃ arity, t.Caps name arity ∧ t.recordOf t.aliasesByTarget (name, arity) = f := by
  rw [Tables.ofTables_eq, bind_eq_ok_iff] at built
  obtain ⟨listed, hlisted, built⟩ := built
  obtain ⟨-, -, hrecords⟩ := bind_eq_ok_iff.mp built
  have hlists := (Tables.declarations_eq_ok_iff.mp hlisted).1
  rw [(builtFrom_ofRecords hrecords).get_eq_ok_iff, List.mem_map]
  constructor
  · rintro ⟨⟨⟨name, arity⟩, hmem, rfl⟩, rfl⟩
    exact ⟨arity, hlists.mem_iff.mp hmem, rfl⟩
  · rintro ⟨arity, hcaps, rfl⟩
    exact ⟨⟨_, hlists.mem_iff.mpr hcaps, rfl⟩, rfl⟩

theorem Tables.AgreeOn.get {t u : Tables} {s s' : Store} {name : String}
    (agree : t.AgreeOn u name) (ht : Store.ofTables t = .ok s) (hu : Store.ofTables u = .ok s') :
    ∃ f, s.get name = .ok f ∧ s'.get name = .ok f := by
  obtain ⟨arity, hcaps, hcaps'⟩ := agree.arity
  have hrecord : t.recordOf t.aliasesByTarget (name, arity)
      = u.recordOf u.aliasesByTarget (name, arity) := by
    simp only [recordOf, agree.aliases, agree.spreadStart, agree.iterateeArity, agree.returnShape]
  exact ⟨_, (Store.get_eq_ok_iff_of_ofTables ht).mpr ⟨arity, hcaps, rfl⟩,
    (Store.get_eq_ok_iff_of_ofTables hu).mpr ⟨arity, hcaps', hrecord.symm⟩⟩

/-! ## Prepared functions -/

/-- The totals of two runs taken together. -/
instance : Add Report where
  add r r' := ⟨r.functions + r'.functions, r.overloads + r'.overloads, r.aliases + r'.aliases⟩

theorem Report.add_def (r r' : Report) : r + r'
    = ⟨r.functions + r'.functions, r.overloads + r'.overloads, r.aliases + r'.aliases⟩ := rfl

theorem Report.foldl_add (functions : List CurriedFunction) (r : Report) :
    functions.foldl Report.add r = r + Report.total functions := by
  induction functions generalizing r with
  | nil => rfl
  | cons c functions ih =>
      rw [total, List.foldl_cons, List.foldl_cons, ih, ih (Report.add {} c)]
      simp only [add_def, add, Report.mk.injEq]
      omega

theorem Report.total_append (cs ds : List CurriedFunction) :
    Report.total (cs ++ ds) = Report.total cs + Report.total ds := by
  rw [total, List.foldl_append, foldl_add ds]
  rfl

namespace Generation

variable {store store' : Store} {options : ModuleOptions}

def blocks (store : Store) (options : ModuleOptions) (names : List String) :
    Except GenerationError (List String) :=
  (prepare store names).map (List.map (Emitter.functionBlock options))

def totals (store : Store) (names : List String) : Except GenerationError Report :=
  (prepare store names).map Report.total

theorem prepareOne_congr {name : String} (h : store.get name = store'.get name) :
    prepareOne store name = prepareOne store' name := by
  rw [prepareOne, prepareOne, h]

theorem prepare_congr {names : List String} (h : ∀ n ∈ names, store.get n = store'.get n) :
    prepare store names = prepare store' names := by
  induction names with
  | nil => rfl
  | cons name names ih =>
      obtain ⟨hname, hnames⟩ := List.forall_mem_cons.mp h
      simp only [prepare] at ih ⊢
      rw [List.mapM_cons, List.mapM_cons, prepareOne_congr hname, ih hnames]

theorem prepare_append (store : Store) (xs ys : List String) :
    prepare store (xs ++ ys) = (do
      let cs ← prepare store xs
      let ds ← prepare store ys
      return cs ++ ds) :=
  List.mapM_append

/-- If `g` goes along with append, what it makes of all names is joined from what it makes of each
part. -/
theorem map_prepare_append {β : Type} {g : List CurriedFunction → β} {join : β → β → β}
    (hg : ∀ cs ds, g (cs ++ ds) = join (g cs) (g ds)) (store : Store) (xs ys : List String) :
    (prepare store (xs ++ ys)).map g = (do
      let b ← (prepare store xs).map g
      let b' ← (prepare store ys).map g
      return join b b') := by
  rw [prepare_append]
  cases prepare store xs with
  | error e => rfl
  | ok cs =>
      cases prepare store ys with
      | error e => rfl
      | ok ds => exact congrArg Except.ok (hg cs ds)

theorem blocks_append (store : Store) (options : ModuleOptions) (xs ys : List String) :
    blocks store options (xs ++ ys) = (do
      let bs ← blocks store options xs
      let bs' ← blocks store options ys
      return bs ++ bs') :=
  map_prepare_append (fun _ _ => List.map_append) store xs ys

theorem totals_append (store : Store) (xs ys : List String) :
    totals store (xs ++ ys) = (do
      let r ← totals store xs
      let r' ← totals store ys
      return r + r') :=
  map_prepare_append Report.total_append store xs ys

/-- A run hands over its blocks between header and footer and reports its totals. -/
theorem run_blocks {σ : Type} {d : Destination σ} (reliable : d.Reliable) {mode : Mode}
    {names : List String} (covers : mode.Covers names) {bs : List String}
    (h : blocks store options names = .ok bs) (s : σ) :
    ∃ definitions ops report s', continuationDefinitions = .ok definitions
      ∧ mode.run d.traced store options names (s, []) = ((s', ops), .ok report)
      ∧ OutputOp.chunks ops = opening options definitions :: (bs ++ [closing])
      ∧ totals store names = .ok report := by
  obtain ⟨definitions, hd⟩ := continuationDefinitions_ok
  rw [blocks] at h
  cases hprepared : prepare store names with
  | error e => rw [hprepared] at h; cases h
  | ok functions =>
      rw [hprepared] at h
      obtain rfl := Except.ok.inj h
      refine ⟨definitions, mode.ops options definitions functions, Report.total functions,
        (d.performAll (mode.ops options definitions functions) s).1, hd, ?_,
        Mode.chunks_ops mode options definitions functions, ?_⟩
      · rw [Mode.run_of_ok covers hd hprepared]
        exact (Destination.deliver_traced reliable _ _ s).1
      · rw [totals, hprepared]
        rfl

end Generation

open Generation

/-- **Functions do not interfere.** Let stores be built from two tables. On a name on which the
tables agree, the stores have the same record, so it is curried alike, and for a list of such
names the blocks under the same options and the totals are the same, whatever else the tables
hold. The blocks of two lists of names, one after the other, are those of the first followed by
those of the second, and their totals are added up; so each name contributes a block and
amounts of its own. In either mode a run to a destination that refuses nothing hands over these
blocks between header and footer and reports these totals; if there are none, it reports why. -/
theorem ofTables_noninterference {t u : Tables} {s s' : Store} (ht : Store.ofTables t = .ok s)
    (hu : Store.ofTables u = .ok s') (options : ModuleOptions) :
    (∀ name, t.AgreeOn u name →
        (∃ f, s.get name = .ok f ∧ s'.get name = .ok f)
        ∧ prepareOne s name = prepareOne s' name)
      ∧ (∀ names, (∀ n ∈ names, t.AgreeOn u n) →
          blocks s options names = blocks s' options names ∧ totals s names = totals s' names)
      ∧ ∀ store : Store,
          (∀ xs ys, blocks store options (xs ++ ys) = (do
              let bs ← blocks store options xs
              let bs' ← blocks store options ys
              return bs ++ bs')
            ∧ totals store (xs ++ ys) = (do
              let r ← totals store xs
              let r' ← totals store ys
              return r + r'))
          ∧ ∀ (mode : Mode) (names : List String), mode.Covers names →
              ∀ (σ : Type) (d : Destination σ), d.Reliable → ∀ state : σ,
                (∀ e, blocks store options names = .error e →
                  mode.run d store options names state = (state, .error e))
                ∧ ∀ bs, blocks store options names = .ok bs →
                    ∃ definitions ops report state', continuationDefinitions = .ok definitions
                      ∧ mode.run d.traced store options names (state, [])
                          = ((state', ops), .ok report)
                      ∧ OutputOp.chunks ops = opening options definitions :: (bs ++ [closing])
                      ∧ totals store names = .ok report := by
  have hget : ∀ name, t.AgreeOn u name → s.get name = s'.get name := by
    intro name agree
    obtain ⟨f, hf, hf'⟩ := agree.get ht hu
    rw [hf, hf']
  refine ⟨fun name agree => ⟨agree.get ht hu, prepareOne_congr (hget name agree)⟩,
    fun names agree => ?_, fun store => ⟨fun xs ys => ?_, ?_⟩⟩
  · rw [blocks, blocks, totals, totals, prepare_congr fun n hn => hget n (agree n hn)]
    exact ⟨rfl, rfl⟩
  · exact ⟨blocks_append store options xs ys, totals_append store xs ys⟩
  · intro mode names covers σ d reliable state
    refine ⟨fun e he => ?_, fun bs hbs => run_blocks reliable covers hbs state⟩
    rw [blocks] at he
    cases hprepared : prepare store names with
    | error e' =>
        rw [hprepared] at he
        obtain rfl := Except.error.inj he
        exact Mode.run_of_error covers hprepared d options state
    | ok functions => rw [hprepared] at he; cases he

/-- Tables may be extended around a function. The second tables list `map` in another group,
rearranged and with entries for functions that the first ones do not have, and say the same of
it. -/
theorem ofTables_noninterference_extended :
    ∃ s s',
      Store.ofTables
          { groups := [("2", ["map", "add"])], targetOf := [("collect", "map")],
            iterateeArities := [("map", 1)] } = .ok s
      ∧ Store.ofTables
          { groups := [("3", ["reduce"]), (" +02 ", ["map"])], targetOf := [("fold", "reduce")],
            aliasesOf := [("head", ["first"]), ("map", ["collect"])],
            iterateeArities := [("reduce", 2), ("map", 1)] } = .ok s'
      ∧ blocks s {} ["map"] = blocks s' {} ["map"]
      ∧ totals s' ["map"] = .ok { functions := 1, overloads := 2, aliases := 1 } := by
  let t : Tables :=
    { groups := [("2", ["map", "add"])], targetOf := [("collect", "map")],
      iterateeArities := [("map", 1)] }
  let u : Tables :=
    { groups := [("3", ["reduce"]), (" +02 ", ["map"])], targetOf := [("fold", "reduce")],
      aliasesOf := [("head", ["first"]), ("map", ["collect"])],
      iterateeArities := [("reduce", 2), ("map", 1)] }
  let map : FunctionRecord :=
    { name := "map", arity := 2, aliases := ["collect"], iterateeArity := some 1 }
  let reduce : FunctionRecord :=
    { name := "reduce", arity := 3, aliases := ["fold"], iterateeArity := some 2 }
  have ht : Store.ofTables t = .ok
      { functions := [("map", map), ("add", .declare "add" 2)], names := ["add", "map"],
        aliasIndex := [("collect", "map")] } := by
    show Store.ofRecords [map, .declare "add" 2] = _
    exact Store.ofRecords_eq rfl (by decide) (by decide) rfl
  have hu : Store.ofTables u = .ok
      { functions := [("reduce", reduce), ("map", map)], names := ["map", "reduce"],
        aliasIndex := [("collect", "map"), ("fold", "reduce")] } := by
    show Store.ofRecords [reduce, map] = _
    exact Store.ofRecords_eq rfl (by decide) (by decide) rfl
  have hcaps : t.Caps "map" 2 :=
    ⟨"2", _, List.mem_cons_self, List.mem_cons_self, ArityKey.read?_eq_some_iff.mp (by decide)⟩
  have hcaps' : u.Caps "map" 2 :=
    ⟨" +02 ", _, List.mem_cons_of_mem _ List.mem_cons_self, List.mem_cons_self,
      ArityKey.read?_eq_some_iff.mp (by decide)⟩
  have agree : t.AgreeOn u "map" := ⟨⟨2, hcaps, hcaps'⟩, rfl, rfl, rfl, rfl⟩
  obtain ⟨-, hsame, -⟩ := ofTables_noninterference ht hu {}
  obtain ⟨hblocks, -⟩ := hsame ["map"] (by simpa using agree)
  exact ⟨_, _, ht, hu, hblocks, rfl⟩

end CurriedTypings
