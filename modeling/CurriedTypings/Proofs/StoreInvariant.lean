import CurriedTypings.Proofs.Traversal
import CurriedTypings.Store
import Mathlib.Data.List.Nodup

/-!
# What a store holds

A store keeps its records by name, the function behind each alias and the names in
order. `BuiltFrom` says how the three fit the records a store was built from:

- the records are entered as they come, under distinct names (`Declares`);
- the names are those of the records, in strictly increasing order;
- the index binds exactly the aliases of the records, none of which is declared
  (`Indexes`).

Entering a record keeps the first of these and entering an alias the last, so a
construction that comes to its end establishes them (`builtFrom_ofRecords`). All
queries are answered from them, and the headline theorem `ofRecords_represents`
lists the answers.
-/

namespace CurriedTypings

namespace Store

/-! ## Records by name -/

/-- The records have been entered, one after the other. -/
structure Declares (records : List FunctionRecord) (functions : Table FunctionRecord) : Prop where
  entries : functions = records.map fun f => (f.name, f)
  distinct : (records.map FunctionRecord.name).Nodup
  callable : ∀ f ∈ records, 1 ≤ f.arity

theorem declare_eq_ok_iff {functions functions' : Table FunctionRecord} {f : FunctionRecord} :
    declare functions f = .ok functions' ↔
      1 ≤ f.arity ∧ functions.get? f.name = none ∧ functions' = functions ++ [(f.name, f)] := by
  rw [declare]
  by_cases harity : f.arity = 0
  · rw [if_pos harity]
    exact ⟨nofun, fun h => absurd harity (by omega)⟩
  · rw [if_neg harity]
    cases hget : functions.get? f.name with
    | some g => exact ⟨nofun, fun h => absurd h.2.1 nofun⟩
    | none =>
        rw [Table.put_of_get?_eq_none hget]
        constructor
        · intro h
          exact ⟨by omega, rfl, (Except.ok.inj h).symm⟩
        · rintro ⟨-, -, rfl⟩
          rfl

namespace Declares

variable {records : List FunctionRecord} {functions : Table FunctionRecord}

theorem nil : Declares [] [] := ⟨rfl, List.nodup_nil, by simp⟩

theorem keys_eq (h : Declares records functions) :
    functions.keys = records.map FunctionRecord.name := by
  rw [h.entries, Table.keys, List.map_map]
  rfl

theorem snoc {functions' : Table FunctionRecord} {f : FunctionRecord}
    (h : Declares records functions) (hf : declare functions f = .ok functions') :
    Declares (records ++ [f]) functions' := by
  obtain ⟨harity, hnew, rfl⟩ := declare_eq_ok_iff.mp hf
  rw [Table.get?_eq_none_iff, h.keys_eq] at hnew
  refine ⟨by rw [List.map_append, ← h.entries]; rfl, ?_, ?_⟩
  · rw [List.map_append]
    exact nodup_append_singleton.mpr ⟨h.distinct, hnew⟩
  · intro g hg
    rcases List.mem_append.mp hg with hg | hg
    · exact h.callable g hg
    · rw [List.mem_singleton.mp hg]
      exact harity

theorem of_foldlM (h : records.foldlM declare [] = .ok functions) :
    Declares records functions :=
  foldlM_invariant (fun _ _ _ _ hdone hf => hdone.snoc hf) Declares.nil h

theorem name_injective (h : Declares records functions) {f g : FunctionRecord}
    (hf : f ∈ records) (hg : g ∈ records) (hname : f.name = g.name) : f = g :=
  List.inj_on_of_nodup_map h.distinct hf hg hname

theorem get?_eq_some_iff (h : Declares records functions) {n : String} {f : FunctionRecord} :
    functions.get? n = some f ↔ f ∈ records ∧ f.name = n := by
  have hkeys : functions.keys.Nodup := h.keys_eq ▸ h.distinct
  rw [Table.get?_eq_some_iff hkeys, h.entries, List.mem_map]
  constructor
  · rintro ⟨g, hg, heq⟩
    obtain ⟨rfl, rfl⟩ := Prod.mk.inj heq
    exact ⟨hg, rfl⟩
  · rintro ⟨hf, rfl⟩
    exact ⟨f, hf, rfl⟩

theorem get?_eq_none_iff (h : Declares records functions) {n : String} :
    functions.get? n = none ↔ n ∉ records.map FunctionRecord.name := by
  rw [Table.get?_eq_none_iff, h.keys_eq]

theorem recordsOf_keys (h : Declares records functions) :
    recordsOf functions functions.keys = records := by
  have hself : ∀ f ∈ records, (functions.get? ∘ FunctionRecord.name) f = some f :=
    fun f hf => h.get?_eq_some_iff.mpr ⟨hf, rfl⟩
  rw [recordsOf, h.keys_eq, List.filterMap_map, List.filterMap_congr hself, List.filterMap_some]

end Declares

theorem map_name_recordsOf {records : List FunctionRecord} {functions : Table FunctionRecord}
    (h : Declares records functions) : ∀ {names : List String},
      (∀ n ∈ names, n ∈ functions.keys) → (recordsOf functions names).map FunctionRecord.name = names
  | [], _ => rfl
  | n :: names, hnames => by
      have hn : n ∈ records.map FunctionRecord.name := h.keys_eq ▸ hnames n (List.mem_cons_self ..)
      obtain ⟨f, hf, hname⟩ := List.mem_map.mp hn
      have ih := map_name_recordsOf h fun m hm => hnames m (List.mem_cons_of_mem _ hm)
      rw [recordsOf] at ih ⊢
      rw [List.filterMap_cons_some (h.get?_eq_some_iff.mpr ⟨hf, hname⟩), List.map_cons, ih, hname]

/-! ## Names in order -/

theorem sortNames_perm (names : List String) : (sortNames names).Perm names :=
  List.mergeSort_perm _ _

theorem sortNames_sorted (names : List String) : (sortNames names).Pairwise (· ≤ ·) := by
  have htrans : ∀ a b c : String, decide (a ≤ b) → decide (b ≤ c) → decide (a ≤ c) := by
    intro a b c hab hbc
    exact decide_eq_true (String.le_trans (of_decide_eq_true hab) (of_decide_eq_true hbc))
  have htotal : ∀ a b : String, decide (a ≤ b) || decide (b ≤ a) := by
    intro a b
    rcases String.le_total a b with h | h
    · rw [decide_eq_true h, Bool.true_or]
    · rw [decide_eq_true h, Bool.or_true]
  exact (List.pairwise_mergeSort htrans htotal names).imp of_decide_eq_true

theorem sortNames_increasing {names : List String} (distinct : names.Nodup) :
    (sortNames names).Pairwise (· < ·) := by
  have hne : (sortNames names).Nodup := (sortNames_perm names).nodup_iff.mpr distinct
  refine List.Pairwise.imp ?_ ((sortNames_sorted names).and hne)
  rintro a b ⟨hab, hne⟩
  exact Decidable.byContradiction fun hlt => hne (String.le_antisymm hab (String.not_lt.mp hlt))

/-- Names have one order only, whatever order they are sorted from. -/
theorem sortNames_eq {names sorted : List String} (hperm : names.Perm sorted)
    (hsorted : sorted.Pairwise (· ≤ ·)) : sortNames names = sorted :=
  List.Perm.eq_of_pairwise (fun _ _ _ _ => String.le_antisymm) (sortNames_sorted names) hsorted
    ((sortNames_perm names).trans hperm)

namespace Declares

variable {records : List FunctionRecord} {functions : Table FunctionRecord}

theorem sorted_perm (h : Declares records functions) :
    (recordsOf functions (sortNames functions.keys)).Perm records := by
  have hperm := (sortNames_perm functions.keys).filterMap functions.get?
  exact hperm.trans (.of_eq h.recordsOf_keys)

theorem map_name_sorted (h : Declares records functions) :
    (recordsOf functions (sortNames functions.keys)).map FunctionRecord.name
      = sortNames functions.keys :=
  map_name_recordsOf h fun _ hn => (sortNames_perm _).mem_iff.mp hn

theorem sorted_increasing (h : Declares records functions) :
    (recordsOf functions (sortNames functions.keys)).Pairwise fun f g => f.name < g.name := by
  rw [← List.pairwise_map (R := (· < ·)), h.map_name_sorted]
  exact sortNames_increasing (h.keys_eq ▸ h.distinct)

end Declares

/-! ## The index of aliases -/

/-- These bindings have been entered into the index, and all of them were new names. -/
structure Indexes (functions : Table FunctionRecord) (bindings : List AliasBinding)
    (index : Table String) : Prop where
  resolves : ∀ a n, index.get? a = some n ↔ ⟨a, n⟩ ∈ bindings
  undeclared : ∀ b ∈ bindings, functions.get? b.name = none

theorem indexAlias_eq_ok_iff {functions : Table FunctionRecord} {f : FunctionRecord}
    {index index' : Table String} {a : String} :
    indexAlias functions f index a = .ok index' ↔
      functions.get? a = none ∧ (∀ n, index.get? a = some n → n = f.name)
        ∧ index' = index.put a f.name := by
  rw [indexAlias, Table.contains]
  cases hdeclared : functions.get? a with
  | some g => exact ⟨nofun, fun h => absurd h.1 nofun⟩
  | none =>
      rw [if_neg (by simp)]
      cases hget : index.get? a with
      | none =>
          constructor
          · intro h
            exact ⟨rfl, nofun, (Except.ok.inj h).symm⟩
          · rintro ⟨-, -, rfl⟩
            rfl
      | some first =>
          dsimp only
          by_cases hfirst : first = f.name
          · rw [if_pos hfirst]
            constructor
            · intro h
              exact ⟨rfl, fun n hn => Option.some.inj hn ▸ hfirst, (Except.ok.inj h).symm⟩
            · rintro ⟨-, -, rfl⟩
              rfl
          · rw [if_neg hfirst]
            exact ⟨nofun, fun h => absurd (h.2.1 first rfl) hfirst⟩

namespace Indexes

variable {functions : Table FunctionRecord} {bindings : List AliasBinding}
  {index index' : Table String} {f : FunctionRecord}

theorem nil : Indexes functions [] [] := ⟨by simp, by simp⟩

theorem snoc (h : Indexes functions bindings index) {a : String}
    (ha : indexAlias functions f index a = .ok index') :
    Indexes functions (bindings ++ [⟨a, f.name⟩]) index' := by
  obtain ⟨hnew, hsame, rfl⟩ := indexAlias_eq_ok_iff.mp ha
  constructor
  · intro b n
    rw [Table.get?_put, List.mem_append, List.mem_singleton]
    by_cases hab : a = b
    · subst hab
      rw [if_pos rfl]
      constructor
      · intro hn
        rw [Option.some.inj hn]
        exact Or.inr rfl
      · rintro (hn | hn)
        · rw [hsame n ((h.resolves a n).mpr hn)]
        · rw [(AliasBinding.mk.inj hn).2]
    · rw [if_neg hab, h.resolves]
      have hother : (⟨b, n⟩ : AliasBinding) ≠ ⟨a, f.name⟩ :=
        fun heq => hab (AliasBinding.mk.inj heq).1.symm
      exact ⟨Or.inl, fun hn => hn.resolve_right hother⟩
  · intro b hb
    rcases List.mem_append.mp hb with hb | hb
    · exact h.undeclared b hb
    · rw [List.mem_singleton.mp hb]
      exact hnew

theorem append_aliases (h : Indexes functions bindings index)
    (hf : indexAliasesOf functions index f = .ok index') :
    Indexes functions (bindings ++ f.aliasBindings) index' := by
  refine foldlM_invariant
    (P := fun done idx => Indexes functions (bindings ++ done.map fun a => ⟨a, f.name⟩) idx)
    ?_ ?_ hf
  · intro done a idx idx' hdone ha
    have := hdone.snoc ha
    rwa [List.append_assoc, ← List.map_singleton (f := fun a => (⟨a, f.name⟩ : AliasBinding)),
      ← List.map_append] at this
  · rwa [List.map_nil, List.append_nil]

/-- The aliases of all functions have been entered, one function after the other. -/
theorem of_foldlM {records : List FunctionRecord}
    (h : records.foldlM (indexAliasesOf functions) [] = .ok index) :
    Indexes functions (records.flatMap FunctionRecord.aliasBindings) index := by
  refine foldlM_invariant
    (P := fun done idx => Indexes functions (done.flatMap FunctionRecord.aliasBindings) idx)
    ?_ nil h
  intro done f idx idx' hdone hf
  have := hdone.append_aliases hf
  rwa [← List.flatMap_singleton (f := FunctionRecord.aliasBindings), ← List.flatMap_append]
    at this

end Indexes

/-! ## Stores -/

/-- How a store fits the records it was built from. -/
structure BuiltFrom (records : List FunctionRecord) (s : Store) : Prop where
  declares : Declares records s.functions
  ordered : s.names = sortNames s.functions.keys
  indexes : Indexes s.functions (s.records.flatMap FunctionRecord.aliasBindings) s.aliasIndex

theorem builtFrom_ofRecords {records : List FunctionRecord} {s : Store}
    (h : ofRecords records = .ok s) : BuiltFrom records s := by
  obtain ⟨functions, hfunctions, h⟩ := bind_eq_ok_iff.mp h
  obtain ⟨index, hindex, h⟩ := bind_eq_ok_iff.mp h
  obtain rfl := Except.ok.inj h
  exact ⟨Declares.of_foldlM hfunctions, rfl, Indexes.of_foldlM hindex⟩

/-- What comes of entering the aliases in name order, where the names have been put in order. -/
theorem ofRecords_of_sorted {records : List FunctionRecord} {functions : Table FunctionRecord}
    {names : List String} (hfunctions : records.foldlM declare [] = .ok functions)
    (hperm : functions.keys.Perm names) (hsorted : names.Pairwise (· ≤ ·)) :
    ofRecords records = (recordsOf functions names).foldlM (indexAliasesOf functions) []
      >>= fun aliasIndex => .ok { functions, aliasIndex, names } := by
  rw [ofRecords, hfunctions, bind_ok]
  simp only [sortNames_eq hperm hsorted]
  rfl

/-- The store that comes of entering all records and then all aliases. -/
theorem ofRecords_eq {records : List FunctionRecord} {functions : Table FunctionRecord}
    {names : List String} {aliasIndex : Table String}
    (hfunctions : records.foldlM declare [] = .ok functions)
    (hperm : functions.keys.Perm names) (hsorted : names.Pairwise (· ≤ ·))
    (hindex : (recordsOf functions names).foldlM (indexAliasesOf functions) [] = .ok aliasIndex) :
    ofRecords records = .ok { functions, aliasIndex, names } := by
  rw [ofRecords_of_sorted hfunctions hperm hsorted, hindex, bind_ok]

namespace BuiltFrom

variable {records : List FunctionRecord} {s : Store} (built : BuiltFrom records s)

include built

theorem get_eq_ok_iff {n : String} {f : FunctionRecord} :
    s.get n = .ok f ↔ f ∈ records ∧ f.name = n := by
  rw [← built.declares.get?_eq_some_iff, get, get?]
  cases s.functions.get? n with
  | none => exact ⟨nofun, nofun⟩
  | some g => exact ⟨fun h => Except.ok.inj h ▸ rfl, fun h => Option.some.inj h ▸ rfl⟩

theorem names_perm : s.names.Perm (records.map FunctionRecord.name) := by
  rw [built.ordered, ← built.declares.keys_eq]
  exact sortNames_perm _

theorem contains_iff {n : String} : s.contains n ↔ n ∈ s.names := by
  rw [built.names_perm.mem_iff, ← not_iff_not, ← built.declares.get?_eq_none_iff]
  simp [contains, Table.contains]

theorem get_eq_error_iff {n : String} {e : MetadataError} :
    s.get n = .error e ↔ n ∉ s.names ∧ e = .undeclaredFunction n := by
  rw [← built.contains_iff, contains, Table.contains, get, get?]
  cases s.functions.get? n with
  | none => exact ⟨fun h => ⟨nofun, (Except.error.inj h).symm⟩, fun h => h.2 ▸ rfl⟩
  | some f => exact ⟨nofun, fun h => absurd rfl h.1⟩

theorem names_increasing : s.names.Pairwise (· < ·) := by
  rw [built.ordered]
  exact sortNames_increasing (built.declares.keys_eq ▸ built.declares.distinct)

theorem records_perm : s.records.Perm records := by
  rw [Store.records, built.ordered]
  exact built.declares.sorted_perm

theorem map_name_records : s.records.map FunctionRecord.name = s.names := by
  rw [Store.records, built.ordered]
  exact built.declares.map_name_sorted

theorem size_eq : s.size = records.length := by
  rw [size, built.declares.entries, List.length_map]

/-- The names of the records that have some property are a sorted part of all names. -/
theorem names_of_filter (p : FunctionRecord → Bool) :
    ((s.records.filter p).map FunctionRecord.name).Sublist s.names
      ∧ ∀ n, n ∈ (s.records.filter p).map FunctionRecord.name ↔
          ∃ f ∈ records, f.name = n ∧ p f := by
  constructor
  · rw [← built.map_name_records]
    exact (List.filter_sublist).map _
  · intro n
    rw [List.mem_map]
    constructor
    · rintro ⟨f, hf, rfl⟩
      obtain ⟨hf, hp⟩ := List.mem_filter.mp hf
      exact ⟨f, built.records_perm.mem_iff.mp hf, rfl, hp⟩
    · rintro ⟨f, hf, rfl, hp⟩
      exact ⟨f, List.mem_filter.mpr ⟨built.records_perm.mem_iff.mpr hf, hp⟩, rfl⟩

theorem resolveAlias?_eq_some_iff {a n : String} :
    s.resolveAlias? a = some n ↔ ∃ f ∈ records, f.name = n ∧ a ∈ f.aliases := by
  rw [resolveAlias?, built.indexes.resolves, List.mem_flatMap]
  constructor
  · rintro ⟨f, hf, hbinding⟩
    obtain ⟨ha, rfl⟩ := FunctionRecord.mem_aliasBindings_iff.mp hbinding
    exact ⟨f, built.records_perm.mem_iff.mp hf, rfl, ha⟩
  · rintro ⟨f, hf, rfl, ha⟩
    exact ⟨f, built.records_perm.mem_iff.mpr hf, FunctionRecord.mem_aliasBindings_iff.mpr ⟨ha, rfl⟩⟩

theorem alias_undeclared {f : FunctionRecord} (hf : f ∈ records) {a : String}
    (ha : a ∈ f.aliases) : a ∉ records.map FunctionRecord.name := by
  have hbinding : (⟨a, f.name⟩ : AliasBinding) ∈ s.records.flatMap FunctionRecord.aliasBindings :=
    List.mem_flatMap.mpr ⟨f, built.records_perm.mem_iff.mpr hf,
      FunctionRecord.mem_aliasBindings_iff.mpr ⟨ha, rfl⟩⟩
  exact built.declares.get?_eq_none_iff.mp (built.indexes.undeclared _ hbinding)

theorem alias_unique {f g : FunctionRecord} (hf : f ∈ records) (hg : g ∈ records) {a : String}
    (haf : a ∈ f.aliases) (hag : a ∈ g.aliases) : f = g := by
  have hresolve := built.resolveAlias?_eq_some_iff.mpr ⟨f, hf, rfl, haf⟩
  rw [built.resolveAlias?_eq_some_iff.mpr ⟨g, hg, rfl, hag⟩] at hresolve
  exact built.declares.name_injective hf hg (Option.some.inj hresolve).symm

end BuiltFrom

/-- What the queries of a store say about the records it was built from. -/
structure Represents (records : List FunctionRecord) (s : Store) : Prop where
  /-- Names are in strictly increasing order of their code points. -/
  names_lt : s.names.Pairwise (· < ·)
  mem_names : ∀ n, n ∈ s.names ↔ ∃ f ∈ records, f.name = n
  /-- A declared name has the one record of that name. -/
  get_ok : ∀ n f, s.get n = .ok f ↔ f ∈ records ∧ f.name = n
  get_error : ∀ n, (∀ f ∈ records, f.name ≠ n) → s.get n = .error (.undeclaredFunction n)
  arity_pos : ∀ n f, s.get n = .ok f → 1 ≤ f.arity
  resolve_alias : ∀ a n, s.resolveAlias? a = some n ↔ ∃ f, s.get n = .ok f ∧ a ∈ f.aliases
  resolve_binding :
    ∀ a n, s.resolveAlias? a = some n ↔ ∃ f, s.get n = .ok f ∧ ⟨a, n⟩ ∈ f.aliasBindings
  alias_not_declared : ∀ f ∈ records, ∀ a ∈ f.aliases, a ∉ s.names
  /-- No alias belongs to two functions. -/
  alias_injective : ∀ f ∈ records, ∀ g ∈ records, ∀ a, a ∈ f.aliases → a ∈ g.aliases → f = g
  /-- Listing the records gives each of them once, … -/
  records_perm : s.records.Perm records
  /-- … in name order. -/
  records_names : s.records.map FunctionRecord.name = s.names
  size_eq : s.size = records.length
  curriable_sublist : s.curriableNames.Sublist s.names
  mem_curriable : ∀ n, n ∈ s.curriableNames ↔ ∃ f ∈ records, f.name = n ∧ f.spreadStart = none
  iteratee_sublist : s.iterateeNames.Sublist s.names
  mem_iteratee :
    ∀ n, n ∈ s.iterateeNames ↔ ∃ f ∈ records, f.name = n ∧ ∃ count, f.iterateeArity = some count

/-- **A store represents its records.** Whatever records a store could be built from, the
records by name, the index of aliases and the ordered names agree on every key. -/
theorem ofRecords_represents {records : List FunctionRecord} {s : Store}
    (h : ofRecords records = .ok s) : Represents records s := by
  have built := builtFrom_ofRecords h
  have hnames : ∀ n, n ∈ s.names ↔ ∃ f ∈ records, f.name = n := by
    intro n
    rw [built.names_perm.mem_iff, List.mem_map]
  have hresolve : ∀ a n, s.resolveAlias? a = some n ↔ ∃ f, s.get n = .ok f ∧ a ∈ f.aliases := by
    intro a n
    rw [built.resolveAlias?_eq_some_iff]
    simp only [built.get_eq_ok_iff, and_assoc]
  obtain ⟨hcurriable, hmemCurriable⟩ := built.names_of_filter fun f => f.spreadStart.isNone
  obtain ⟨hiteratee, hmemIteratee⟩ := built.names_of_filter fun f => f.iterateeArity.isSome
  refine ⟨built.names_increasing, hnames, fun n f => built.get_eq_ok_iff, ?_, ?_, hresolve, ?_, ?_,
    fun f hf g hg a => built.alias_unique hf hg, built.records_perm, built.map_name_records,
    built.size_eq, hcurriable, ?_, hiteratee, ?_⟩
  · intro n hn
    refine built.get_eq_error_iff.mpr ⟨fun hdeclared => ?_, rfl⟩
    obtain ⟨f, hf, hname⟩ := (hnames n).mp hdeclared
    exact hn f hf hname
  · intro n f hf
    exact built.declares.callable f (built.get_eq_ok_iff.mp hf).1
  · intro a n
    rw [hresolve]
    refine exists_congr fun f => and_congr_right fun hf => ?_
    obtain rfl := (built.get_eq_ok_iff.mp hf).2
    simp [FunctionRecord.aliasBindings]
  · intro f hf a ha hdeclared
    exact built.alias_undeclared hf ha (built.names_perm.mem_iff.mp hdeclared)
  · simp only [Option.isNone_iff_eq_none] at hmemCurriable
    exact hmemCurriable
  · simp only [Option.isSome_iff_exists] at hmemIteratee
    exact hmemIteratee

/-- Two functions that are declared out of order, one of which has an alias. -/
theorem ofRecords_represents_two :
    let records : List FunctionRecord :=
      [{ name := "map", arity := 2, aliases := ["collect"], iterateeArity := some 1 },
        { name := "concat", arity := 2, spreadStart := some 1 }]
    ∃ s, ofRecords records = .ok s ∧ s.names = ["concat", "map"]
      ∧ s.resolveAlias? "collect" = some "map" ∧ s.curriableNames = ["map"] := by
  intro records
  have h : ofRecords records = .ok
      { functions := records.map fun f => (f.name, f), aliasIndex := [("collect", "map")],
        names := ["concat", "map"] } := ofRecords_eq rfl (by decide) (by decide) rfl
  refine ⟨_, h, rfl, ?_, rfl⟩
  have represents := ofRecords_represents h
  exact (represents.resolve_alias "collect" "map").mpr ⟨_, rfl, by decide⟩

end Store

end CurriedTypings
