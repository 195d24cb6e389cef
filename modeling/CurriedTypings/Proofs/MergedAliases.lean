import CurriedTypings.Proofs.TableVerdict

/-!
# Merged alias tables

Two tables hold aliases: one lists them under the function they stand for, the other binds them
to it one by one. Merging goes through the second table and adds each alias to the list of its
target, so the list of a function grows by the aliases bound to this function and by no others
(`getD_aliasesByTarget`), and the functions that the first table does not have come behind those
it has (`keys_aliasesByTarget`). Where no key is repeated, these two say what the merged table
is, entry by entry (`Tables.aliasesByTarget_exact`).

Both tables may speak of functions that the main table does not list; a library has functions
that need no typing of their own. Nothing ever asks for the aliases of these, so they may as
well not be there (`Store.ofTables_dropForeign`): not even an alias that is the name of a
declared function, or an alias of one, comes to light.
-/

namespace CurriedTypings

/-- A look-up does not see that entries under other keys are missing. -/
theorem Table.get?_filter {α : Type} {p : String → Bool} {key : String} (h : p key) (t : Table α) :
    Table.get? (t.filter fun entry => p entry.1) key = t.get? key := by
  induction t with
  | nil => rfl
  | cons entry t ih =>
      obtain ⟨k, v⟩ := entry
      rw [List.filter_cons, get?_cons]
      by_cases hk : p k
      · rw [if_pos hk, get?_cons, ih]
      · have hne : k ≠ key := by
          rintro rfl
          exact hk h
        rw [if_neg hk, if_neg hne, ih]

namespace Tables

/-! ## The aliases of one function -/

def aliasesBoundTo (targetOf : Table String) (target : String) : List String :=
  (targetOf.filter fun binding => binding.2 = target).map Prod.fst

theorem getD_foldl_bindAlias (targetOf : Table String) (merged : Table (List String))
    (target : String) :
    ((targetOf.foldl (fun merged (name, target) => bindAlias merged name target) merged).get?
        target).getD []
      = addNew ((merged.get? target).getD []) (aliasesBoundTo targetOf target) := by
  induction targetOf generalizing merged with
  | nil => rfl
  | cons binding targetOf ih =>
      obtain ⟨name, other⟩ := binding
      rw [List.foldl_cons, ih]
      simp only [bindAlias, Table.get?_alter]
      by_cases h : other = target
      · subst h
        simp [aliasesBoundTo, addNew_cons]
      · simp [aliasesBoundTo, h]

/-- A function has the aliases listed under it, and then those bound to it that are new. -/
theorem getD_aliasesByTarget (t : Tables) (target : String) :
    (t.aliasesByTarget.get? target).getD []
      = addNew ((t.aliasesOf.get? target).getD []) (aliasesBoundTo t.targetOf target) :=
  getD_foldl_bindAlias t.targetOf t.aliasesOf target

theorem mem_aliasesBoundTo {targetOf : Table String} {a name : String} :
    a ∈ aliasesBoundTo targetOf name ↔ (a, name) ∈ targetOf := by
  rw [aliasesBoundTo, List.mem_map]
  constructor
  · rintro ⟨binding, hfilter, rfl⟩
    obtain ⟨hmem, hname⟩ := List.mem_filter.mp hfilter
    rwa [← of_decide_eq_true hname]
  · intro hmem
    exact ⟨_, List.mem_filter.mpr ⟨hmem, decide_eq_true rfl⟩, rfl⟩

/-! ## All aliases -/

theorem keys_foldl_bindAlias (targetOf : Table String) (merged : Table (List String)) :
    (targetOf.foldl (fun merged (name, target) => bindAlias merged name target) merged).keys
      = addNew merged.keys (targetOf.map Prod.snd) := by
  induction targetOf generalizing merged with
  | nil => rfl
  | cons binding targetOf ih =>
      obtain ⟨name, target⟩ := binding
      rw [List.foldl_cons, ih]
      simp only [bindAlias, Table.keys_alter]
      rfl

/-- The functions come in the order in which the two tables first speak of them. -/
theorem keys_aliasesByTarget (t : Tables) :
    t.aliasesByTarget.keys = addNew t.aliasesOf.keys (t.targetOf.map Prod.snd) :=
  keys_foldl_bindAlias t.targetOf t.aliasesOf

def listedAliases (t : Tables) (target : String) : List String :=
  (t.aliasesOf.get? target).getD []

/-- The aliases that are bound to a function but not listed under it, in table order. -/
def furtherAliases (t : Tables) (target : String) : List String :=
  (aliasesBoundTo t.targetOf target).filter (· ∉ t.listedAliases target)

/-- The functions to which something is bound but for which there is no list, in the order in
which they first appear. -/
def furtherTargets (t : Tables) : List String :=
  (distinct (t.targetOf.map Prod.snd)).filter (· ∉ t.aliasesOf.keys)

theorem mem_listedAliases {t : Tables} (lists : t.aliasesOf.keys.Nodup) {a target : String} :
    a ∈ t.listedAliases target ↔ ∃ names, (target, names) ∈ t.aliasesOf ∧ a ∈ names := by
  simp only [← Table.get?_eq_some_iff lists]
  rw [listedAliases]
  cases t.aliasesOf.get? target <;> simp

theorem mem_furtherAliases {t : Tables} {a target : String} :
    a ∈ t.furtherAliases target ↔ (a, target) ∈ t.targetOf ∧ a ∉ t.listedAliases target := by
  rw [furtherAliases, List.mem_filter, mem_aliasesBoundTo, decide_eq_true_eq]

theorem nodup_aliasesBoundTo {targetOf : Table String} (bindings : targetOf.keys.Nodup)
    (target : String) : (aliasesBoundTo targetOf target).Nodup :=
  bindings.sublist (List.filter_sublist.map _)

theorem aliasesByTarget_eq_map {t : Tables} (lists : t.aliasesOf.keys.Nodup)
    (bindings : t.targetOf.keys.Nodup) :
    t.aliasesByTarget = (t.aliasesOf.keys ++ t.furtherTargets).map fun target =>
      (target, t.listedAliases target ++ t.furtherAliases target) := by
  have hkeys := t.keys_aliasesByTarget
  have hdistinct : t.aliasesByTarget.keys.Nodup := hkeys ▸ nodup_addNew lists _
  rw [addNew_eq_append] at hkeys
  have haliases : ∀ target, (t.aliasesByTarget.get? target).getD []
      = t.listedAliases target ++ t.furtherAliases target := by
    intro target
    rw [getD_aliasesByTarget, addNew_eq_append, distinct_of_nodup (nodup_aliasesBoundTo bindings _)]
    rfl
  rw [Table.eq_map_keys hdistinct [], hkeys]
  simp only [haliases]
  rfl

/-- **Merging loses and invents no alias.** Let no key be repeated in either alias table. The
merged table has the functions of the one table, in its order, and then those that only the
other one speaks of, in the order of their first appearance. Each function has the list it was
given, unchanged, and behind it the aliases bound to it that are not in this list, in the order
of their table and each once. So a function has an alias in the merged table if and only if it
is listed under the function or bound to it. -/
theorem aliasesByTarget_exact {t : Tables} (lists : t.aliasesOf.keys.Nodup)
    (bindings : t.targetOf.keys.Nodup) :
    t.aliasesByTarget = (t.aliasesOf.keys ++ t.furtherTargets).map (fun target =>
        (target, t.listedAliases target ++ t.furtherAliases target))
      ∧ t.aliasesByTarget.keys.Nodup
      ∧ (∀ target, (t.furtherAliases target).Nodup
          ∧ (t.furtherAliases target).Sublist t.targetOf.keys
          ∧ ∀ a, a ∈ t.furtherAliases target ↔
              t.targetOf.get? a = some target ∧ a ∉ t.listedAliases target)
      ∧ ∀ a target, (∃ names, (target, names) ∈ t.aliasesByTarget ∧ a ∈ names) ↔
          (∃ names, (target, names) ∈ t.aliasesOf ∧ a ∈ names) ∨ (a, target) ∈ t.targetOf := by
  have hdistinct : t.aliasesByTarget.keys.Nodup :=
    t.keys_aliasesByTarget ▸ nodup_addNew lists _
  refine ⟨aliasesByTarget_eq_map lists bindings, hdistinct, fun target => ⟨?_, ?_, ?_⟩, ?_⟩
  · exact (nodup_aliasesBoundTo bindings target).filter _
  · exact List.filter_sublist.trans (List.filter_sublist.map _)
  · intro a
    rw [mem_furtherAliases, Table.get?_eq_some_iff bindings]
  · intro a target
    rw [← mem_listedAliases lists, ← mem_aliasesBoundTo, ← mem_addNew, listedAliases,
      ← getD_aliasesByTarget]
    simp only [← Table.get?_eq_some_iff hdistinct]
    cases t.aliasesByTarget.get? target <;> simp

/-- An alias in both tables, one that is listed twice, and a function that only the second table
speaks of. -/
theorem aliasesByTarget_exact_overlapping :
    let t : Tables :=
      { groups := []
        targetOf := [("all", "every"), ("collect", "map"), ("pluck", "map"), ("entire", "every")]
        aliasesOf := [("each", []), ("map", ["collect", "transform", "collect"])] }
    t.aliasesOf.keys.Nodup ∧ t.targetOf.keys.Nodup ∧ t.aliasesByTarget
      = [("each", []), ("map", ["collect", "transform", "collect", "pluck"]),
          ("every", ["all", "entire"])] := by
  intro t
  have lists : t.aliasesOf.keys.Nodup := by decide
  have bindings : t.targetOf.keys.Nodup := by decide
  exact ⟨lists, bindings, (aliasesByTarget_exact lists bindings).1.trans (by decide)⟩

/-! ## Functions that are not listed -/

def lists (t : Tables) (name : String) : Bool := t.groups.any fun group => name ∈ group.2

/-- The tables without the aliases of functions that the main table does not list. -/
def dropForeign (t : Tables) : Tables :=
  { t with
    targetOf := t.targetOf.filter fun binding => t.lists binding.2
    aliasesOf := t.aliasesOf.filter fun entry => t.lists entry.1 }

theorem lists_of_mem_declarations {t : Tables} {declared : Table Nat}
    (h : t.declarations = .ok declared) {name : String} (hname : name ∈ declared.keys) :
    t.lists name := by
  rw [(declarations_eq_ok_iff.mp h).1.keys_eq, List.mem_flatMap] at hname
  obtain ⟨group, hgroup, hname⟩ := hname
  exact List.any_eq_true.mpr ⟨group, hgroup, decide_eq_true hname⟩

theorem aliasesBoundTo_filter {p : String → Bool} {target : String} (h : p target)
    (targetOf : Table String) :
    aliasesBoundTo (targetOf.filter fun binding => p binding.2) target
      = aliasesBoundTo targetOf target := by
  rw [aliasesBoundTo, aliasesBoundTo, List.filter_filter]
  refine congrArg (List.map Prod.fst) (List.filter_congr fun binding _ => ?_)
  by_cases hbinding : binding.2 = target
  · simp [hbinding, h]
  · simp [hbinding]

/-- A function that is listed has the record it has without the others' aliases. -/
theorem recordOf_dropForeign {t : Tables} {declaration : String × Nat}
    (h : t.lists declaration.1) :
    t.dropForeign.recordOf t.dropForeign.aliasesByTarget declaration
      = t.recordOf t.aliasesByTarget declaration := by
  have haliases : (t.dropForeign.aliasesByTarget.get? declaration.1).getD []
      = (t.aliasesByTarget.get? declaration.1).getD [] := by
    rw [getD_aliasesByTarget, getD_aliasesByTarget, dropForeign, Table.get?_filter h,
      aliasesBoundTo_filter h]
  simp only [recordOf, haliases]
  rfl

end Tables

/-- **Aliases of functions that are not listed have no effect.** A store built from tables, or the
reason why there is none, is the same if these aliases are taken out of both alias tables. -/
theorem Store.ofTables_dropForeign (t : Tables) :
    Store.ofTables t.dropForeign = Store.ofTables t := by
  rw [Tables.ofTables_eq, Tables.ofTables_eq]
  have hdeclarations : t.dropForeign.declarations = t.declarations := rfl
  have hkeys : t.dropForeign.entryKeys = t.entryKeys := rfl
  rw [hdeclarations, hkeys]
  cases hdeclared : t.declarations with
  | error e => rfl
  | ok declared =>
      have hrecords : declared.map (t.dropForeign.recordOf t.dropForeign.aliasesByTarget)
          = declared.map (t.recordOf t.aliasesByTarget) :=
        List.map_congr_left fun declaration hmem => Tables.recordOf_dropForeign
          (Tables.lists_of_mem_declarations hdeclared (List.mem_map_of_mem hmem))
      rw [bind_ok, bind_ok, hrecords]

end CurriedTypings
