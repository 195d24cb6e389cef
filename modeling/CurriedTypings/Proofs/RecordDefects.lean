import CurriedTypings.Proofs.StoreInvariant

/-!
# Which records cannot be stored

A store is built by two loops that give up at the first record or alias they cannot
enter. What they refuse is said here of the records alone:

- the earliest record that takes no arguments or repeats a name
  (`DeclarationDefect`);
- if there is none, the least alias that is declared or that a function with a smaller
  name lists as well (`AliasDefect`), where aliases are compared by the names of their
  functions and, within a function, by their places in its list.

The first loop sees the records in the order given. The second sees them in name
order, so that the functions it has done are those with smaller names
(`mem_before_iff`) and `AliasDefect` need not mention any order of the records. A
defect of either sort is unique, hence it is the one reported
(`ofRecords_eq_error_iff`); where there is none, the records are `Consistent` and can
be stored (`ofRecords_ok_iff`).
-/

namespace CurriedTypings

namespace Store

variable {records : List FunctionRecord} {functions : Table FunctionRecord} {e : MetadataError}

/-! ## Records that cannot be entered -/

/-- All records can be entered by name. -/
structure Declarable (records : List FunctionRecord) : Prop where
  callable : ∀ f ∈ records, 1 ≤ f.arity
  distinct : (records.map FunctionRecord.name).Nodup

/-- What is wrong with the earliest record that cannot be entered. -/
inductive DeclarationDefect (records : List FunctionRecord) : MetadataError → Prop
  | zeroArity {before after : List FunctionRecord} {f : FunctionRecord}
      (split : records = before ++ f :: after) (sound : Declarable before)
      (uncallable : f.arity = 0) : DeclarationDefect records (.zeroArity f.name)
  | duplicate {before after : List FunctionRecord} {f g : FunctionRecord}
      (split : records = before ++ f :: after) (sound : Declarable before)
      (callable : 1 ≤ f.arity) (earlier : g ∈ before) (same : g.name = f.name) :
      DeclarationDefect records (.duplicateDeclaration f.name g.arity f.arity)

theorem Declares.declarable (h : Declares records functions) : Declarable records :=
  ⟨h.callable, h.distinct⟩

theorem name_ne_of_mem_before (distinct : (records.map FunctionRecord.name).Nodup)
    {before after : List FunctionRecord} {f g : FunctionRecord}
    (split : records = before ++ f :: after) (earlier : g ∈ before) : g.name ≠ f.name := by
  rw [split, List.map_append, List.map_cons, List.nodup_append] at distinct
  exact distinct.2.2 g.name (List.mem_map_of_mem earlier) f.name (List.mem_cons_self ..)

theorem DeclarationDefect.not_declarable (h : DeclarationDefect records e) :
    ¬ Declarable records := by
  intro ⟨hcallable, hdistinct⟩
  cases h with
  | @zeroArity before after f split _ uncallable =>
      have := hcallable f (split ▸ by simp)
      omega
  | duplicate split _ _ earlier same => exact name_ne_of_mem_before hdistinct split earlier same

theorem Declares.declare_eq_error_iff (h : Declares records functions) {f : FunctionRecord} :
    declare functions f = .error e ↔ f.arity = 0 ∧ e = .zeroArity f.name
      ∨ 1 ≤ f.arity ∧ ∃ g ∈ records, g.name = f.name
          ∧ e = .duplicateDeclaration f.name g.arity f.arity := by
  rw [declare]
  by_cases harity : f.arity = 0
  · simp [harity, eq_comm]
  · rw [if_neg harity]
    have hcallable : 1 ≤ f.arity := by omega
    cases hget : functions.get? f.name with
    | none =>
        have hnew := h.get?_eq_none_iff.mp hget
        constructor
        · intro herror
          cases herror
        · rintro (⟨hzero, -⟩ | ⟨-, g, hg, hname, -⟩)
          · exact absurd hzero harity
          · exact absurd (List.mem_map.mpr ⟨g, hg, hname⟩) hnew
    | some g =>
        obtain ⟨hg, hname⟩ := h.get?_eq_some_iff.mp hget
        constructor
        · intro herror
          exact Or.inr ⟨hcallable, g, hg, hname, (Except.error.inj herror).symm⟩
        · rintro (⟨hzero, -⟩ | ⟨-, g', hg', hname', rfl⟩)
          · exact absurd hzero harity
          · rw [h.name_injective hg' hg (hname'.trans hname.symm)]

theorem declarationDefect_of_foldlM (h : records.foldlM declare [] = .error e) :
    DeclarationDefect records e := by
  obtain ⟨before, f, after, functions, hsplit, hbefore, hf⟩ := foldlM_eq_error_iff.mp h
  have hdeclares := Declares.of_foldlM hbefore
  rcases hdeclares.declare_eq_error_iff.mp hf with ⟨hzero, rfl⟩ | ⟨hcallable, g, hg, hname, rfl⟩
  · exact .zeroArity hsplit hdeclares.declarable hzero
  · exact .duplicate hsplit hdeclares.declarable hcallable hg hname

theorem Declarable.exists_declares (h : Declarable records) :
    ∃ functions, records.foldlM declare [] = .ok functions ∧ Declares records functions := by
  cases hfold : records.foldlM declare [] with
  | error e => exact absurd h (declarationDefect_of_foldlM hfold).not_declarable
  | ok functions => exact ⟨functions, rfl, Declares.of_foldlM hfold⟩

theorem foldlM_declare_eq_error_iff :
    records.foldlM declare [] = .error e ↔ DeclarationDefect records e := by
  refine ⟨declarationDefect_of_foldlM, fun h => foldlM_eq_error_iff.mpr ?_⟩
  cases h with
  | zeroArity split sound uncallable =>
      obtain ⟨functions, hfold, hdeclares⟩ := sound.exists_declares
      exact ⟨_, _, _, functions, split, hfold,
        hdeclares.declare_eq_error_iff.mpr (Or.inl ⟨uncallable, rfl⟩)⟩
  | duplicate split sound callable earlier same =>
      obtain ⟨functions, hfold, hdeclares⟩ := sound.exists_declares
      exact ⟨_, _, _, functions, split, hfold,
        hdeclares.declare_eq_error_iff.mpr (Or.inr ⟨callable, _, earlier, same, rfl⟩)⟩

/-! ## Aliases that cannot be entered -/

/-- `a` cannot stand for `f`: it is declared, or a function with a smaller name lists it. -/
def Conflicts (records : List FunctionRecord) (f : FunctionRecord) (a : String) : Prop :=
  (∃ g ∈ records, g.name = a) ∨ ∃ g ∈ records, g.name < f.name ∧ a ∈ g.aliases

/-- `a` is the first alias of `f` that conflicts, and functions with smaller names have none. -/
structure LeastConflict (records : List FunctionRecord) (f : FunctionRecord) (a : String) :
    Prop where
  listed : f ∈ records
  conflicts : Conflicts records f a
  first : ∃ earlier later, f.aliases = earlier ++ a :: later
    ∧ ∀ b ∈ earlier, ¬ Conflicts records f b
  least : ∀ g ∈ records, g.name < f.name → ∀ b ∈ g.aliases, ¬ Conflicts records g b

/-- What is wrong with the least alias that cannot be entered. -/
inductive AliasDefect (records : List FunctionRecord) : MetadataError → Prop
  | shadows {f g : FunctionRecord} {a : String} (least : LeastConflict records f a)
      (declared : g ∈ records) (same : g.name = a) :
      AliasDefect records (.aliasShadowsFunction a f.name)
  | shared {first second : FunctionRecord} {a : String} (least : LeastConflict records second a)
      (listed : first ∈ records) (shares : a ∈ first.aliases)
      (smaller : first.name < second.name)
      (smallest : ∀ g ∈ records, a ∈ g.aliases → first.name ≤ g.name) :
      AliasDefect records (.duplicateAlias a first.name second.name)

theorem LeastConflict.mem_aliases {f : FunctionRecord} {a : String}
    (h : LeastConflict records f a) : a ∈ f.aliases := by
  obtain ⟨earlier, later, hsplit, -⟩ := h.first
  rw [hsplit]
  simp

open Classical in
/-- Of all aliases of its function, a least conflict is the first that is found to conflict. -/
theorem LeastConflict.find?_aliases {f : FunctionRecord} {a : String}
    (h : LeastConflict records f a) :
    f.aliases.find? (fun b => decide (Conflicts records f b)) = some a := by
  obtain ⟨earlier, later, hsplit, hearlier⟩ := h.first
  refine List.find?_eq_some_iff_append.mpr ⟨decide_eq_true h.conflicts, earlier, later, hsplit, ?_⟩
  intro b hb
  rw [decide_eq_false (hearlier b hb)]
  rfl

/-- Where names are distinct there is only one least conflict. -/
theorem LeastConflict.unique (distinct : (records.map FunctionRecord.name).Nodup)
    {f g : FunctionRecord} {a b : String} (ha : LeastConflict records f a)
    (hb : LeastConflict records g b) : f = g ∧ a = b := by
  have hname : f.name = g.name := by
    refine String.le_antisymm (String.not_lt.mp fun hlt => ?_) (String.not_lt.mp fun hlt => ?_)
    · exact ha.least g hb.listed hlt b hb.mem_aliases hb.conflicts
    · exact hb.least f ha.listed hlt a ha.mem_aliases ha.conflicts
  obtain rfl := List.inj_on_of_nodup_map distinct ha.listed hb.listed hname
  exact ⟨rfl, Option.some.inj (ha.find?_aliases.symm.trans hb.find?_aliases)⟩

theorem AliasDefect.unique (distinct : (records.map FunctionRecord.name).Nodup)
    {e' : MetadataError} (h : AliasDefect records e) (h' : AliasDefect records e') : e = e' := by
  have hshadowed : ∀ {f g : FunctionRecord} {a : String}, LeastConflict records f a →
      g ∈ records → a ∈ g.aliases → g.name < f.name → ∀ h ∈ records, h.name ≠ a :=
    fun least hg ha hlt h hh heq => least.least _ hg hlt _ ha (Or.inl ⟨h, hh, heq⟩)
  cases h with
  | shadows least declared same =>
      cases h' with
      | shadows least' _ _ =>
          obtain ⟨rfl, rfl⟩ := least.unique distinct least'
          rfl
      | shared least' listed' shares' smaller' _ =>
          obtain ⟨rfl, rfl⟩ := least.unique distinct least'
          exact absurd same (hshadowed least listed' shares' smaller' _ declared)
  | shared least listed shares smaller smallest =>
      cases h' with
      | shadows least' declared' same' =>
          obtain ⟨rfl, rfl⟩ := least.unique distinct least'
          exact absurd same' (hshadowed least listed shares smaller _ declared')
      | shared least' listed' shares' _ smallest' =>
          obtain ⟨rfl, rfl⟩ := least.unique distinct least'
          rw [String.le_antisymm (smallest _ listed' shares') (smallest' _ listed shares)]

/-! ## The second loop -/

theorem indexAlias_eq_error_iff {f : FunctionRecord} {index : Table String} {a : String} :
    indexAlias functions f index a = .error e ↔
      functions.get? a ≠ none ∧ e = .aliasShadowsFunction a f.name
        ∨ functions.get? a = none ∧ ∃ first, index.get? a = some first ∧ first ≠ f.name
          ∧ e = .duplicateAlias a first f.name := by
  rw [indexAlias, Table.contains]
  cases hdeclared : functions.get? a with
  | some g => simp [eq_comm]
  | none =>
      rw [if_neg (by simp)]
      cases hget : index.get? a with
      | none => simp
      | some first =>
          by_cases hfirst : first = f.name
          · simp [hfirst]
          · simp [hfirst, eq_comm]

/-- In a list in name order, what precedes a record is what has a smaller name. -/
theorem mem_before_iff {before after : List FunctionRecord} {f g : FunctionRecord}
    (ordered : (before ++ f :: after).Pairwise fun f g => f.name < g.name) :
    g ∈ before ↔ g ∈ before ++ f :: after ∧ g.name < f.name := by
  obtain ⟨-, hafter, hcross⟩ := List.pairwise_append.mp ordered
  constructor
  · intro hg
    exact ⟨List.mem_append_left _ hg, hcross g hg f (List.mem_cons_self ..)⟩
  · rintro ⟨hg, hlt⟩
    rcases List.mem_append.mp hg with hg | hg
    · exact hg
    · rcases List.mem_cons.mp hg with rfl | hg
      · exact absurd hlt (String.lt_irrefl _)
      · exact absurd hlt (String.lt_asymm (List.rel_of_pairwise_cons hafter hg))

/-- A binding that has been entered after all those of functions with smaller names conflicts
with nothing. -/
theorem Indexes.not_conflicts (hdeclares : Declares records functions)
    {bindings : List AliasBinding} {index : Table String} (h : Indexes functions bindings index)
    {f : FunctionRecord} {a : String} (hentered : ⟨a, f.name⟩ ∈ bindings)
    (hsmaller : ∀ g ∈ records, g.name < f.name → a ∈ g.aliases → ⟨a, g.name⟩ ∈ bindings) :
    ¬ Conflicts records f a := by
  rintro (⟨g, hg, rfl⟩ | ⟨g, hg, hlt, hlisted⟩)
  · have hnew := hdeclares.get?_eq_none_iff.mp (h.undeclared _ hentered)
    exact hnew (List.mem_map_of_mem hg)
  · have hboth := (h.resolves a g.name).mpr (hsmaller g hg hlt hlisted)
    rw [(h.resolves a f.name).mpr hentered] at hboth
    rw [Option.some.inj hboth] at hlt
    exact String.lt_irrefl _ hlt

section SecondLoop

variable {sorted : List FunctionRecord} (hdeclares : Declares records functions)
  (hperm : sorted.Perm records) (ordered : sorted.Pairwise fun f g => f.name < g.name)

include hdeclares hperm ordered

theorem not_conflicts_of_foldlM {before after : List FunctionRecord} {index : Table String}
    (hsplit : sorted = before ++ after)
    (hfold : before.foldlM (indexAliasesOf functions) [] = .ok index) :
    ∀ f ∈ before, ∀ a ∈ f.aliases, ¬ Conflicts records f a := by
  intro f hf a ha
  have hbinding : ∀ {g : FunctionRecord}, g ∈ before → a ∈ g.aliases →
      ⟨a, g.name⟩ ∈ before.flatMap FunctionRecord.aliasBindings :=
    fun hg ha => List.mem_flatMap.mpr ⟨_, hg, FunctionRecord.mem_aliasBindings_iff.mpr ⟨ha, rfl⟩⟩
  refine (Indexes.of_foldlM hfold).not_conflicts hdeclares (hbinding hf ha) fun g hg hlt hlisted => ?_
  obtain ⟨left, right, rfl⟩ := List.append_of_mem hf
  rw [hsplit, List.append_assoc, List.cons_append] at ordered
  have hleft : g ∈ left := by
    refine (mem_before_iff ordered).mpr ⟨?_, hlt⟩
    rw [← List.cons_append, ← List.append_assoc, ← hsplit]
    exact hperm.mem_iff.mpr hg
  exact hbinding (List.mem_append_left _ hleft) hlisted

theorem aliasDefect_of_foldlM (h : sorted.foldlM (indexAliasesOf functions) [] = .error e) :
    AliasDefect records e := by
  obtain ⟨before, f, after, index, hsplit, hbefore, hf⟩ := foldlM_eq_error_iff.mp h
  obtain ⟨earlier, a, later, index', haliases, hearlier, ha⟩ := foldlM_eq_error_iff.mp hf
  have hlisted : f ∈ records := hperm.mem_iff.mp (hsplit ▸ by simp)
  have hbeforeIff : ∀ {g : FunctionRecord}, g ∈ before ↔ g ∈ records ∧ g.name < f.name := by
    intro g
    rw [← hperm.mem_iff, hsplit, mem_before_iff (hsplit ▸ ordered)]
  have hentered : Indexes functions (before.flatMap FunctionRecord.aliasBindings
      ++ earlier.map fun b => ⟨b, f.name⟩) index' :=
    (Indexes.of_foldlM hbefore).append_aliases (f := { f with aliases := earlier }) hearlier
  have hsmaller : ∀ g ∈ records, g.name < f.name → ∀ b ∈ g.aliases,
      (⟨b, g.name⟩ : AliasBinding) ∈ before.flatMap FunctionRecord.aliasBindings :=
    fun g hg hlt b hb =>
      List.mem_flatMap.mpr ⟨g, hbeforeIff.mpr ⟨hg, hlt⟩,
        FunctionRecord.mem_aliasBindings_iff.mpr ⟨hb, rfl⟩⟩
  have hleast : Conflicts records f a → LeastConflict records f a := by
    refine fun hconflict => ⟨hlisted, hconflict, ⟨earlier, later, haliases, ?_⟩, ?_⟩
    · intro b hb
      refine hentered.not_conflicts hdeclares ?_ fun g hg hlt hlisted => ?_
      · exact List.mem_append_right _ (List.mem_map_of_mem hb)
      · exact List.mem_append_left _ (hsmaller g hg hlt b hlisted)
    · intro g hg hlt
      exact not_conflicts_of_foldlM hdeclares hperm ordered hsplit hbefore g
        (hbeforeIff.mpr ⟨hg, hlt⟩)
  rcases indexAlias_eq_error_iff.mp ha with ⟨hdeclared, rfl⟩ | ⟨-, first, hget, hne, rfl⟩
  · obtain ⟨g, hg⟩ := Option.ne_none_iff_exists'.mp hdeclared
    obtain ⟨hg, hname⟩ := hdeclares.get?_eq_some_iff.mp hg
    exact .shadows (hleast (Or.inl ⟨g, hg, hname⟩)) hg hname
  · obtain ⟨g, hg, hbinding⟩ : ∃ g ∈ before, ⟨a, first⟩ ∈ g.aliasBindings := by
      rcases List.mem_append.mp ((hentered.resolves a first).mp hget) with hbinding | hbinding
      · exact List.mem_flatMap.mp hbinding
      · obtain ⟨b, -, hb⟩ := List.mem_map.mp hbinding
        exact absurd (AliasBinding.mk.inj hb).2.symm hne
    obtain ⟨hag, rfl⟩ := FunctionRecord.mem_aliasBindings_iff.mp hbinding
    obtain ⟨hg, hlt⟩ := hbeforeIff.mp hg
    have hconflict := hleast (Or.inr ⟨g, hg, hlt, hag⟩)
    refine .shared hconflict hg hag hlt fun h hh hlisted => String.not_lt.mp fun hsmallest => ?_
    exact hconflict.least g hg hlt a hag (Or.inr ⟨h, hh, hsmallest, hlisted⟩)

theorem foldlM_indexAliases_eq_error_iff :
    sorted.foldlM (indexAliasesOf functions) [] = .error e ↔ AliasDefect records e := by
  refine ⟨aliasDefect_of_foldlM hdeclares hperm ordered, fun h => ?_⟩
  cases hfold : sorted.foldlM (indexAliasesOf functions) [] with
  | error e' =>
      have h' := aliasDefect_of_foldlM hdeclares hperm ordered hfold
      rw [h.unique hdeclares.distinct h']
  | ok index =>
      have hnone := not_conflicts_of_foldlM hdeclares hperm ordered (List.append_nil _).symm hfold
      obtain ⟨f, a, hleast⟩ : ∃ f a, LeastConflict records f a := by
        cases h with
        | shadows least => exact ⟨_, _, least⟩
        | shared least => exact ⟨_, _, least⟩
      exact absurd hleast.conflicts
        (hnone f (hperm.mem_iff.mpr hleast.listed) a hleast.mem_aliases)

end SecondLoop

/-! ## Refusals -/

/-- What is reported of records that cannot be stored. An alias counts only where all records
can be entered. -/
inductive Refusal (records : List FunctionRecord) (e : MetadataError) : Prop
  | declaration (defect : DeclarationDefect records e)
  | aliasing (sound : Declarable records) (defect : AliasDefect records e)

theorem ofRecords_eq_error_iff : ofRecords records = .error e ↔ Refusal records e := by
  have hloops : ofRecords records = .error e ↔ records.foldlM declare [] = .error e ∨
      ∃ functions, records.foldlM declare [] = .ok functions ∧
        (recordsOf functions (sortNames functions.keys)).foldlM (indexAliasesOf functions) []
          = .error e := by
    rw [ofRecords, bind_eq_error_iff]
    simp only [bind_eq_error_iff]
    simp [pure, Except.pure]
  rw [hloops, foldlM_declare_eq_error_iff]
  constructor
  · rintro (hdefect | ⟨functions, hfold, herror⟩)
    · exact .declaration hdefect
    · have hdeclares := Declares.of_foldlM hfold
      exact .aliasing hdeclares.declarable ((foldlM_indexAliases_eq_error_iff hdeclares
        hdeclares.sorted_perm hdeclares.sorted_increasing).mp herror)
  · rintro (hdefect | ⟨hsound, hdefect⟩)
    · exact Or.inl hdefect
    · obtain ⟨functions, hfold, hdeclares⟩ := hsound.exists_declares
      exact Or.inr ⟨functions, hfold, (foldlM_indexAliases_eq_error_iff hdeclares
        hdeclares.sorted_perm hdeclares.sorted_increasing).mpr hdefect⟩

/-- Records under distinct names are never refused for a name. -/
theorem ofRecords_ne_duplicateDeclaration (distinct : (records.map FunctionRecord.name).Nodup)
    (name : String) (first second : Nat) :
    ofRecords records ≠ .error (.duplicateDeclaration name first second) := by
  intro h
  rcases ofRecords_eq_error_iff.mp h with hdefect | ⟨-, hdefect⟩
  · cases hdefect with
    | duplicate split _ _ earlier same => exact name_ne_of_mem_before distinct split earlier same
  · cases hdefect

/-- Nothing keeps records from being stored. -/
structure Consistent (records : List FunctionRecord) : Prop extends Declarable records where
  unshadowed : ∀ f ∈ records, ∀ a ∈ f.aliases, ∀ g ∈ records, g.name ≠ a
  unshared : ∀ f ∈ records, ∀ g ∈ records, f.name ≠ g.name → ∀ a ∈ f.aliases, a ∉ g.aliases

theorem Consistent.not_conflicts (h : Consistent records) {f : FunctionRecord} {a : String}
    (hf : f ∈ records) (ha : a ∈ f.aliases) : ¬ Conflicts records f a := by
  rintro (⟨g, hg, hname⟩ | ⟨g, hg, hlt, hlisted⟩)
  · exact h.unshadowed f hf a ha g hg hname
  · exact h.unshared g hg f hf (String.ne_of_lt hlt) a hlisted ha

theorem Consistent.not_refusal (h : Consistent records) : ¬ Refusal records e := by
  rintro (hdefect | ⟨-, hdefect⟩)
  · exact hdefect.not_declarable h.toDeclarable
  · cases hdefect with
    | shadows least => exact h.not_conflicts least.listed least.mem_aliases least.conflicts
    | shared least => exact h.not_conflicts least.listed least.mem_aliases least.conflicts

theorem BuiltFrom.consistent {s : Store} (built : BuiltFrom records s) : Consistent records where
  toDeclarable := built.declares.declarable
  unshadowed := by
    intro f hf a ha g hg hname
    exact built.alias_undeclared hf ha (List.mem_map.mpr ⟨g, hg, hname⟩)
  unshared := by
    intro f hf g hg hne a haf hag
    exact hne (congrArg FunctionRecord.name (built.alias_unique hf hg haf hag))

theorem ofRecords_ok_iff : (∃ s, ofRecords records = .ok s) ↔ Consistent records := by
  constructor
  · rintro ⟨s, h⟩
    exact (builtFrom_ofRecords h).consistent
  · intro h
    cases hbuilt : ofRecords records with
    | ok s => exact ⟨s, rfl⟩
    | error e => exact absurd (ofRecords_eq_error_iff.mp hbuilt) h.not_refusal

/-- **Exactly the consistent records can be stored, and the first defect is reported.** Records
can be stored if and only if each takes arguments, no two have one name, no alias is declared
and none is listed under two names. Otherwise the error is about the earliest record that takes
no arguments or repeats a name and, if there is none, about the least alias that is declared or
listed under a smaller name. -/
theorem ofRecords_verdict (records : List FunctionRecord) :
    ((∃ s, ofRecords records = .ok s) ↔ Consistent records)
      ∧ ∀ e, ofRecords records = .error e ↔ Refusal records e :=
  ⟨ofRecords_ok_iff, fun _ => ofRecords_eq_error_iff⟩

end Store

end CurriedTypings
