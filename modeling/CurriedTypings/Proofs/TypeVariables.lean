import CurriedTypings.Proofs.PrintedTypes

/-!
# The variables of a type

Collecting the variables of a type walks through it once and adds every leaf it meets to what
has been seen (`TypeExpr.collectVars_eq`), so what comes of it is the sequence of leaves without
its repetitions. Two things are said of this sequence here, neither of them by way of the walk:

- a variable is among the leaves if and only if it occurs in the type, at whatever depth
  (`mem_leaves_iff`);
- the leaves come in the order in which a reader of the printed type meets them
  (`namedVars_print`). The names of helper types are read past: they are words with letters in
  them that are no variables.

The headline theorem `vars_first_occurrences` puts these together, for one type and for several
types collected one after the other.
-/

namespace CurriedTypings

/-- A variable occurs in a type, at whatever depth. -/
inductive TypeVar.OccursIn (v : TypeVar) : TypeExpr → Prop
  | var : v.OccursIn (.var v)
  | array {element : TypeExpr} (h : v.OccursIn element) : v.OccursIn (.array element)
  | collection {element : TypeExpr} (h : v.OccursIn element) : v.OccursIn (.collection element)
  | value {k : CallbackArity} {value result : TypeExpr} (h : v.OccursIn value) :
      v.OccursIn (.iteratee k value result)
  | callbackResult {k : CallbackArity} {value result : TypeExpr} (h : v.OccursIn result) :
      v.OccursIn (.iteratee k value result)
  | remaining {remaining : List TypeExpr} {result t : TypeExpr} (ht : t ∈ remaining)
      (h : v.OccursIn t) : v.OccursIn (.continuation remaining result)
  | finalResult {remaining : List TypeExpr} {result : TypeExpr} (h : v.OccursIn result) :
      v.OccursIn (.continuation remaining result)

namespace TypeExpr

variable {v : TypeVar}

/-! ## Leaves -/

mutual

theorem occursIn_of_mem_leaves : ∀ {t : TypeExpr}, v ∈ t.leaves → v.OccursIn t
  | var w, h => by
      obtain rfl := List.mem_singleton.mp h
      exact .var
  | array element, h => .array (occursIn_of_mem_leaves (t := element) h)
  | collection element, h => .collection (occursIn_of_mem_leaves (t := element) h)
  | iteratee k value result, h => by
      rcases List.mem_append.mp h with h | h
      · exact .value (occursIn_of_mem_leaves h)
      · exact .callbackResult (occursIn_of_mem_leaves h)
  | continuation remaining result, h => by
      rcases List.mem_append.mp h with h | h
      · obtain ⟨t, ht, hv⟩ := exists_occursIn_of_mem_leavesOfAll h
        exact .remaining ht hv
      · exact .finalResult (occursIn_of_mem_leaves h)

theorem exists_occursIn_of_mem_leavesOfAll :
    ∀ {ts : List TypeExpr}, v ∈ leavesOfAll ts → ∃ t ∈ ts, v.OccursIn t
  | t :: ts, h => by
      rcases List.mem_append.mp h with h | h
      · exact ⟨t, List.mem_cons_self, occursIn_of_mem_leaves h⟩
      · obtain ⟨u, hu, hv⟩ := exists_occursIn_of_mem_leavesOfAll h
        exact ⟨u, List.mem_cons_of_mem _ hu, hv⟩

end

theorem mem_leaves_of_occursIn {t : TypeExpr} (h : v.OccursIn t) : v ∈ t.leaves := by
  induction h with
  | var => exact List.mem_singleton_self v
  | array _ ih => exact ih
  | collection _ ih => exact ih
  | value _ ih => exact List.mem_append_left _ ih
  | callbackResult _ ih => exact List.mem_append_right _ ih
  | @remaining remaining _ t ht _ ih =>
      have hall : v ∈ leavesOfAll remaining := by
        rw [leavesOfAll_eq_flatMap]
        exact List.mem_flatMap.mpr ⟨t, ht, ih⟩
      exact List.mem_append_left _ hall
  | finalResult _ ih => exact List.mem_append_right _ ih

theorem mem_leaves_iff {t : TypeExpr} : v ∈ t.leaves ↔ v.OccursIn t :=
  ⟨occursIn_of_mem_leaves, mem_leaves_of_occursIn⟩

theorem leaves_of_reference? {t : TypeExpr} {name : String} {args : List TypeExpr}
    (h : t.reference? = some (name, args)) : t.leaves = args.flatMap leaves := by
  cases isComposite_of_reference? h with
  | collection element =>
      simp [leaves]
  | iteratee k value result =>
      simp [leaves]
  | continuation remaining result =>
      simp [leaves, leavesOfAll_eq_flatMap]

/-! ## Variables in print -/

/-- The variables that a text names, from left to right. A name is a longest run of letters and
digits. -/
def namedVars (cs : List Char) : List TypeVar :=
  (cs.splitOnP fun c => !c.isAlphanum).filterMap fun word => varNamed? (String.ofList word)

theorem namedVars_nil : namedVars [] = [] := rfl

/-- A character that belongs to no name separates what is named on both sides of it. -/
theorem namedVars_append_cons {c : Char} (hc : c.isAlphanum = false) (cs ds : List Char) :
    namedVars (cs ++ c :: ds) = namedVars cs ++ namedVars ds := by
  rw [namedVars, List.splitOnP_append_cons cs ds (by rw [hc]; rfl), List.filterMap_append]
  rfl

theorem namedVars_word {cs : List Char} (h : ∀ c ∈ cs, c.isAlphanum) :
    namedVars cs = (varNamed? (String.ofList cs)).toList := by
  rw [namedVars, List.splitOnP_eq_singleton fun c hc => by rw [h c hc]; rfl]
  cases hname : varNamed? (String.ofList cs) <;> simp [hname]

/-- No helper type has the name of a variable; that of an interface is longer, whatever its
width. -/
theorem varNamed?_of_reference? {t : TypeExpr} {name : String} {args : List TypeExpr}
    (h : t.reference? = some (name, args)) : varNamed? name = none := by
  cases isComposite_of_reference? h with
  | collection element =>
      decide
  | iteratee k value result =>
      cases k <;> decide
  | continuation remaining result =>
      cases hname : varNamed? (continuationName remaining.length) with
      | none => rfl
      | some v =>
          have hlength := congrArg String.length (varNamed?_eq_some_iff.mp hname)
          have hvar : v.name.length = 1 := by cases v <;> rfl
          have hstart : "Curry".length = 5 := rfl
          rw [continuationName, String.length_append, hvar, hstart] at hlength
          omega

theorem namedVars_leading {args : List TypeExpr}
    (h : ∀ t ∈ args, namedVars t.print.toList = t.leaves) (cs : List Char) :
    namedVars (leading args ++ cs) = args.flatMap leaves ++ namedVars cs := by
  induction args with
  | nil => rfl
  | cons t args ih =>
      obtain ⟨ht, hargs⟩ := List.forall_mem_cons.mp h
      have hsplit : leading (t :: args) ++ cs
          = t.print.toList ++ ',' :: ([] ++ ' ' :: (leading args ++ cs)) := by
        simp [leading]
      rw [hsplit, namedVars_append_cons (by decide), namedVars_append_cons (by decide),
        namedVars_nil, ih hargs, ht, List.flatMap_cons, List.append_assoc]
      rfl

/-- The leaves of a type are the variables in its printed form, from left to right. -/
theorem namedVars_print (t : TypeExpr) : namedVars t.print.toList = t.leaves := by
  refine reference_induction (P := fun t => namedVars t.print.toList = t.leaves) ?_ ?_ ?_ t
  · intro v
    rw [print, namedVars_word (isAlphanum_of_mem_name v), String.ofList_toList,
      varNamed?_eq_some_iff.mpr rfl]
    rfl
  · intro element ih
    have hbrackets : "[]".toList = '[' :: ([] ++ [']']) := rfl
    rw [print, String.toList_append, hbrackets, namedVars_append_cons (by decide),
      namedVars_append_cons (by decide), ih, namedVars_nil, List.append_nil, List.append_nil]
    rfl
  · intro t last name args href hargs hlast
    have hname : namedVars name.toList = [] := by
      rw [namedVars_word (isAlphanum_of_reference? href), String.ofList_toList,
        varNamed?_of_reference? href]
      rfl
    rw [toList_print_of_reference? href, namedVars_append_cons (by decide), hname,
      List.append_assoc, namedVars_leading hargs, namedVars_append_cons (by decide), hlast,
      namedVars_nil, leaves_of_reference? href, List.flatMap_append, List.flatMap_singleton]
    simp

/-! ## Variables in the order of their first occurrences -/

theorem foldl_collectVars (types : List TypeExpr) (seen : List TypeVar) :
    types.foldl collectVars seen = addNew seen (types.flatMap leaves) := by
  induction types generalizing seen with
  | nil => rfl
  | cons t types ih =>
      rw [List.foldl_cons, ih, collectVars_eq, List.flatMap_cons, addNew_append]

/-- **The variables of a type are its leaves, each at its first occurrence.** None of them is
repeated, they are those that occur in the type, and of two of them the one whose first leaf
comes first is listed first. The leaves are the variables in the printed form of the type, from
left to right. Types that are collected one after the other are treated as one sequence of
leaves: behind what has been seen comes what is new in it, each variable at its first
occurrence. -/
theorem vars_first_occurrences (t : TypeExpr) :
    t.vars = distinct t.leaves
      ∧ t.vars.Nodup
      ∧ (∀ v, v ∈ t.vars ↔ v.OccursIn t)
      ∧ t.vars.Pairwise (fun v w => t.leaves.idxOf v < t.leaves.idxOf w)
      ∧ namedVars t.print.toList = t.leaves
      ∧ ∀ types : List TypeExpr,
          types.foldl collectVars [] = distinct (types.flatMap leaves)
          ∧ ∀ seen, types.foldl collectVars seen
              = seen ++ (distinct (types.flatMap leaves)).filter (· ∉ seen) := by
  refine ⟨vars_eq_distinct t, ?_, fun v => mem_vars.trans mem_leaves_iff, ?_, namedVars_print t,
    fun types => ⟨?_, fun seen => ?_⟩⟩
  · rw [vars_eq_distinct]
    exact nodup_distinct _
  · rw [vars_eq_distinct]
    exact pairwise_distinct _
  · rw [foldl_collectVars, addNew_nil_left]
  · rw [foldl_collectVars, addNew_eq_append]

end TypeExpr

end CurriedTypings
