import CurriedTypings.Proofs.RecordDefects

/-!
# The order of declarations

Records may be given to a store in any order. What a store answers is said by
`BuiltFrom` in terms of the members of the record list, and so is whether there is a
store at all (`Consistent`) and which alias is refused (`AliasDefect`): none of these
looks at positions in the list, so each is kept when the list is permuted. Only the
defects of the first loop depend on the order, and where all records can be entered
there are none.

Listing the records of a store is one such permutation, so a store can be rebuilt from
its own records.
-/

namespace CurriedTypings

namespace Store

/-- Two stores cannot be told apart by asking them. -/
structure SameAnswers (s t : Store) : Prop where
  get : ∀ n, s.get n = t.get n
  contains : ∀ n, s.contains n = t.contains n
  arity : ∀ n, s.arity n = t.arity n
  aliases : ∀ n, s.aliases n = t.aliases n
  spreadStart : ∀ n, s.spreadStart n = t.spreadStart n
  iterateeArity : ∀ n, s.iterateeArity n = t.iterateeArity n
  resolveAlias : ∀ a, s.resolveAlias? a = t.resolveAlias? a
  names : s.names = t.names
  records : s.records = t.records
  curriableNames : s.curriableNames = t.curriableNames
  iterateeNames : s.iterateeNames = t.iterateeNames
  size : s.size = t.size
  isEmpty : s.isEmpty = t.isEmpty

/-- All answers follow from those about single names, the names and the number of records. -/
theorem sameAnswers_of_lookups {s t : Store} (hget : ∀ n, s.get? n = t.get? n)
    (halias : ∀ a, s.resolveAlias? a = t.resolveAlias? a) (hnames : s.names = t.names)
    (hsize : s.size = t.size) : SameAnswers s t := by
  have hanswer : ∀ n, s.get n = t.get n := fun n => by rw [get, get, hget]
  have hrecords : s.records = t.records := by
    rw [records, records, hnames]
    exact congrArg (t.names.filterMap ·) (funext hget)
  exact {
    get := hanswer
    contains := fun n => congrArg Option.isSome (hget n)
    arity := fun n => by rw [arity, arity, hanswer]
    aliases := fun n => by rw [aliases, aliases, hanswer]
    spreadStart := fun n => by rw [spreadStart, spreadStart, hanswer]
    iterateeArity := fun n => by rw [iterateeArity, iterateeArity, hanswer]
    resolveAlias := halias
    names := hnames
    records := hrecords
    curriableNames := by rw [curriableNames, curriableNames, hrecords]
    iterateeNames := by rw [iterateeNames, iterateeNames, hrecords]
    size := hsize
    isEmpty := by
      have hlength : s.functions.length = t.functions.length := hsize
      rw [isEmpty, isEmpty, Bool.eq_iff_iff, List.isEmpty_iff_length_eq_zero, hlength,
        List.isEmpty_iff_length_eq_zero] }

variable {xs ys : List FunctionRecord}

/-! ## Answers -/

theorem BuiltFrom.sameAnswers {s t : Store} (hs : BuiltFrom xs s) (ht : BuiltFrom ys t)
    (h : xs.Perm ys) : SameAnswers s t := by
  refine sameAnswers_of_lookups (fun n => ?_) (fun a => ?_) ?_ ?_
  · refine Option.ext fun f => ?_
    rw [get?, get?, hs.declares.get?_eq_some_iff, ht.declares.get?_eq_some_iff, h.mem_iff]
  · refine Option.ext fun n => ?_
    simp only [hs.resolveAlias?_eq_some_iff, ht.resolveAlias?_eq_some_iff, h.mem_iff]
  · rw [hs.ordered, hs.declares.keys_eq]
    exact sortNames_eq ((h.map _).trans ht.names_perm.symm)
      (ht.names_increasing.imp fun hlt => String.not_lt.mp (String.lt_asymm hlt))
  · rw [hs.size_eq, ht.size_eq, h.length_eq]

/-! ## Defects -/

theorem Declarable.perm (h : xs.Perm ys) (hxs : Declarable xs) : Declarable ys where
  callable f hf := hxs.callable f (h.mem_iff.mpr hf)
  distinct := (h.map _).nodup_iff.mp hxs.distinct

theorem Consistent.perm (h : xs.Perm ys) (hxs : Consistent xs) : Consistent ys where
  toDeclarable := hxs.toDeclarable.perm h
  unshadowed f hf a ha g hg := hxs.unshadowed f (h.mem_iff.mpr hf) a ha g (h.mem_iff.mpr hg)
  unshared f hf g hg := hxs.unshared f (h.mem_iff.mpr hf) g (h.mem_iff.mpr hg)

theorem Conflicts.perm_iff (h : xs.Perm ys) {f : FunctionRecord} {a : String} :
    Conflicts xs f a ↔ Conflicts ys f a := by
  simp only [Conflicts, h.mem_iff]

theorem LeastConflict.perm (h : xs.Perm ys) {f : FunctionRecord} {a : String}
    (hxs : LeastConflict xs f a) : LeastConflict ys f a := by
  obtain ⟨hlisted, hconflicts, ⟨earlier, later, hsplit, hearlier⟩, hleast⟩ := hxs
  refine ⟨h.mem_iff.mp hlisted, (Conflicts.perm_iff h).mp hconflicts,
    ⟨earlier, later, hsplit, fun b hb => ?_⟩, fun g hg hlt b hb => ?_⟩
  · rw [← Conflicts.perm_iff h]
    exact hearlier b hb
  · rw [← Conflicts.perm_iff h]
    exact hleast g (h.mem_iff.mpr hg) hlt b hb

theorem AliasDefect.perm (h : xs.Perm ys) {e : MetadataError} (hxs : AliasDefect xs e) :
    AliasDefect ys e := by
  cases hxs with
  | shadows least declared same => exact .shadows (least.perm h) (h.mem_iff.mp declared) same
  | shared least listed shares smaller smallest =>
      exact .shared (least.perm h) (h.mem_iff.mp listed) shares smaller
        fun g hg => smallest g (h.mem_iff.mpr hg)

theorem refusal_iff_aliasDefect (sound : Declarable xs) {e : MetadataError} :
    Refusal xs e ↔ AliasDefect xs e := by
  constructor
  · rintro (hdefect | ⟨-, hdefect⟩)
    · exact absurd sound hdefect.not_declarable
    · exact hdefect
  · exact .aliasing sound

/-- Records that can all be entered are refused alike in every order. -/
theorem ofRecords_error_perm (h : xs.Perm ys) (sound : Declarable xs) {e : MetadataError} :
    ofRecords xs = .error e ↔ ofRecords ys = .error e := by
  rw [ofRecords_eq_error_iff, ofRecords_eq_error_iff, refusal_iff_aliasDefect sound,
    refusal_iff_aliasDefect (sound.perm h)]
  exact ⟨.perm h, .perm h.symm⟩

theorem ofRecords_isOk_perm (h : xs.Perm ys) :
    (∃ s, ofRecords xs = .ok s) ↔ ∃ t, ofRecords ys = .ok t := by
  rw [ofRecords_ok_iff, ofRecords_ok_iff]
  exact ⟨.perm h, .perm h.symm⟩

/-- **Stores do not depend on the order of declarations.** Of two permutations of the same
records either both can be stored or neither. The two stores answer every query alike; if all
records take arguments and have names of their own, the two failures are the same. In
particular a store is rebuilt from the records it lists. -/
theorem ofRecords_order_irrelevant (h : xs.Perm ys) :
    ((∃ s, ofRecords xs = .ok s) ↔ ∃ t, ofRecords ys = .ok t)
      ∧ (∀ s t, ofRecords xs = .ok s → ofRecords ys = .ok t → SameAnswers s t)
      ∧ ((∀ f ∈ xs, 1 ≤ f.arity) → (xs.map FunctionRecord.name).Nodup →
          ∀ e, ofRecords xs = .error e ↔ ofRecords ys = .error e)
      ∧ ∀ s, ofRecords xs = .ok s → ∃ t, ofRecords s.records = .ok t ∧ SameAnswers s t := by
  refine ⟨ofRecords_isOk_perm h, fun s t hs ht => ?_, fun hcallable hdistinct e => ?_,
    fun s hs => ?_⟩
  · exact (builtFrom_ofRecords hs).sameAnswers (builtFrom_ofRecords ht) h
  · exact ofRecords_error_perm h ⟨hcallable, hdistinct⟩
  · have built := builtFrom_ofRecords hs
    obtain ⟨t, ht⟩ := (ofRecords_isOk_perm built.records_perm).mpr ⟨s, hs⟩
    exact ⟨t, ht, built.sameAnswers (builtFrom_ofRecords ht) built.records_perm.symm⟩

/-- Two functions that share an alias, in either order, and without it. -/
theorem ofRecords_order_irrelevant_shared :
    let map : FunctionRecord := { name := "map", arity := 2, aliases := ["collect", "each"] }
    let filter : FunctionRecord := { name := "filter", arity := 2, aliases := ["each"] }
    let find : FunctionRecord := { name := "find", arity := 2 }
    [map, filter].Perm [filter, map] ∧ [map, find].Perm [find, map]
      ∧ ofRecords [map, filter] = .error (.duplicateAlias "each" "filter" "map")
      ∧ ofRecords [filter, map] = .error (.duplicateAlias "each" "filter" "map")
      ∧ ∃ s t, ofRecords [map, find] = .ok s ∧ ofRecords [find, map] = .ok t ∧ SameAnswers s t := by
  intro map filter find
  have hshared : [map, filter].Perm [filter, map] := .swap ..
  have hapart : [map, find].Perm [find, map] := .swap ..
  have hentered : [map, filter].foldlM declare [] = .ok [("map", map), ("filter", filter)] := rfl
  have hsorted : ["filter", "map"].Pairwise (· ≤ ·) := by decide
  have herror : ofRecords [map, filter] = .error (.duplicateAlias "each" "filter" "map") :=
    ofRecords_of_sorted hentered (.swap ..) hsorted
  obtain ⟨-, -, hsame, -⟩ := ofRecords_order_irrelevant hshared
  obtain ⟨hok, hanswers, -⟩ := ofRecords_order_irrelevant hapart
  have hbuilt : ofRecords [map, find] = .ok
      { functions := [("map", map), ("find", find)],
        aliasIndex := [("collect", "map"), ("each", "map")], names := ["find", "map"] } :=
    ofRecords_eq rfl (.swap ..) (by decide) rfl
  obtain ⟨t, ht⟩ := hok.mp ⟨_, hbuilt⟩
  refine ⟨hshared, hapart, herror, (hsame (by decide) (by decide) _).mp herror, _, t, hbuilt, ht, ?_⟩
  exact hanswers _ t hbuilt ht

end Store

end CurriedTypings
