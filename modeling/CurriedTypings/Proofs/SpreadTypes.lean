import CurriedTypings.Proofs.RenderedEntries

/-!
# Types of spread parameters

A spread parameter is declared with the array of the type of one argument. Brackets behind a type
bind more tightly than a bar or an arrow in it, so a type with a bar or an arrow outside all of its
brackets needs parentheses (`IsArrayOf`).

Declaring looks for bars only, and for all of them. A type with an arrow and no bar is left without
parentheses, and the brackets go to the type that its functions return (`declaration_spread_callback`).
The headline theorem `spread_verdict` says that this is all that goes wrong, and for which parameters
it does: those of a single type that is a function type, and the callbacks that are known by name.
-/

namespace CurriedTypings.Docs

/-! ## Precedence -/

/-- An operator of types that binds less tightly than the brackets of an array. -/
inductive TypeOperator where
  | bar | arrow
  deriving DecidableEq, Repr

/-- How many brackets are open behind a character. -/
def nested (depth : Nat) (c : Char) : Nat :=
  if c ∈ ['(', '[', '<', '\x7b'] then depth + 1
  else if c ∈ [')', ']', '>', '\x7d'] then depth - 1
  else depth

/-- The operators outside all brackets, when so many are open at first. -/
def looseOperators (depth : Nat) : List Char → List TypeOperator
  | [] => []
  | '=' :: '>' :: cs => (if depth = 0 then [.arrow] else []) ++ looseOperators depth cs
  | '|' :: cs => (if depth = 0 then [.bar] else []) ++ looseOperators depth cs
  | c :: cs => looseOperators (nested depth c) cs

/-- A type text denotes the array of an element type. -/
def IsArrayOf (element type : String) : Prop :=
  (type = element ++ "[]" ∧ looseOperators 0 element.toList = []) ∨ type = "(" ++ element ++ ")[]"

theorem bar_not_mem_looseOperators {depth : Nat} {cs : List Char} (h : '|' ∉ cs) :
    .bar ∉ looseOperators depth cs := by
  fun_induction looseOperators depth cs with
  | case1 => exact List.not_mem_nil
  | case2 depth cs ih =>
      have hrest := ih fun hmem => h (List.mem_cons_of_mem _ (List.mem_cons_of_mem _ hmem))
      rw [List.mem_append, not_or]
      refine ⟨?_, hrest⟩
      split <;> simp
  | case3 depth cs ih => exact absurd List.mem_cons_self h
  | case4 depth c cs harrow hbar ih => exact ih fun hmem => h (List.mem_cons_of_mem _ hmem)

/-- Without bars only arrows can be loose. -/
theorem looseOperators_ne_nil_iff {depth : Nat} {cs : List Char} (h : '|' ∉ cs) :
    looseOperators depth cs ≠ [] ↔ .arrow ∈ looseOperators depth cs := by
  constructor
  · intro hne
    obtain ⟨operator, rest, hoperators⟩ := List.exists_cons_of_ne_nil hne
    cases operator with
    | bar => exact absurd (hoperators ▸ List.mem_cons_self) (bar_not_mem_looseOperators h)
    | arrow => rw [hoperators]; exact List.mem_cons_self
  · intro hmem
    exact List.ne_nil_of_mem hmem

theorem parenthesised_ne (element : String) : element ++ "[]" ≠ "(" ++ element ++ ")[]" := by
  intro h
  have hlength := congrArg (fun s : String => s.toList.length) h
  simp at hlength

namespace Param

variable {p : Param}

theorem isArrayOf_arrayOf (element : String) : IsArrayOf element (arrayOf element) ↔
    '|' ∈ element.toList ∨ .arrow ∉ looseOperators 0 element.toList := by
  unfold arrayOf IsArrayOf
  by_cases hbar : '|' ∈ element.toList
  · simp [hbar]
  · rw [if_neg (by simpa using hbar), or_iff_left (parenthesised_ne element), or_iff_right hbar,
      and_iff_right rfl, ← looseOperators_ne_nil_iff hbar, not_not]

/-! ## Types of one argument -/

def containerNames : List String := ["array", "arrays", "values"]

def callbackTypes : List (String × String) :=
  [("iteratee", "(value: T) => any"), ("comparator", "(a: T, b: T) => boolean"),
    ("predicate", "(value: T) => boolean")]

/-- The ways to come by the type of one argument. -/
inductive TypedAs (p : Param) : String → Prop
  | container (named : p.name ∈ containerNames) : TypedAs p "T[]"
  | value (named : p.name = "value") (types : p.types = ["*"]) : TypedAs p "T"
  | any (plain : p.name ∉ containerNames) (unnamed : p.name ≠ "value") (types : p.types = ["*"]) :
      TypedAs p "any"
  | callback {type : String} (plain : p.name ∉ containerNames) (types : p.types = ["Function"])
      (named : (p.name, type) ∈ callbackTypes) : TypedAs p type
  | function (plain : p.name ∉ containerNames) (types : p.types = ["Function"])
      (unnamed : ∀ type, (p.name, type) ∉ callbackTypes) : TypedAs p "Function"
  | union (plain : p.name ∉ containerNames) (typed : p.types ≠ ["*"])
      (noFunction : p.types ≠ ["Function"]) : TypedAs p ("|".intercalate p.types)

theorem typedAs_elementType (p : Param) : p.TypedAs p.elementType := by
  unfold elementType
  split_ifs with hcontainer hvalue htypes hiteratee hcomparator hpredicate hany
  · exact .container (List.contains_iff_mem.mp hcontainer)
  · obtain ⟨hname, htypes⟩ := Bool.and_eq_true_iff.mp hvalue
    exact .value (of_decide_eq_true hname) (hasTypes_iff.mp htypes)
  all_goals have plain : p.name ∉ containerNames := mt List.contains_iff_mem.mpr hcontainer
  · exact .callback plain (hasTypes_iff.mp htypes) (by simp [callbackTypes, hiteratee])
  · exact .callback plain (hasTypes_iff.mp htypes) (by simp [callbackTypes, hcomparator])
  · exact .callback plain (hasTypes_iff.mp htypes) (by simp [callbackTypes, hpredicate])
  · exact .function plain (hasTypes_iff.mp htypes)
      (by simp [callbackTypes, hiteratee, hcomparator, hpredicate])
  · have unnamed : p.name ≠ "value" := fun hname => hvalue (by simp [hname, hany])
    exact .any plain unnamed (hasTypes_iff.mp hany)
  · exact .union plain (mt hasTypes_iff.mpr hany) (mt hasTypes_iff.mpr htypes)

/-! ## Function types -/

/-- The type of one argument is a function type without parentheses around it, and there is no bar
in it that would bring them about. -/
def IsBareFunction (p : Param) : Prop :=
  p.name ∉ containerNames
    ∧ (p.types = ["Function"] ∧ (∃ type, (p.name, type) ∈ callbackTypes)
      ∨ ∃ type, p.types = [type] ∧ .arrow ∈ looseOperators 0 type.toList)

theorem arrow_not_loose : ∀ word ∈ ["T[]", "T", "any", "Function", "*"],
    .arrow ∉ looseOperators 0 word.toList := by decide

/-- A single documented type without an arrow is no function type, unless it is that of a callback. -/
theorem not_isBareFunction_of_word {word : String} (types : p.types = [word])
    (harrow : .arrow ∉ looseOperators 0 word.toList)
    (unnamed : word = "Function" → ∀ type, (p.name, type) ∉ callbackTypes) : ¬ p.IsBareFunction := by
  unfold IsBareFunction
  rw [types]
  rintro ⟨-, ⟨hfunction, type, named⟩ | ⟨type, hword, htype⟩⟩
  · exact unnamed (List.singleton_inj.mp hfunction) type named
  · obtain rfl := List.singleton_inj.mp hword
    exact harrow htype

theorem isBareFunction_iff (h : ParamTag.IsProper p) : p.IsBareFunction ↔
    '|' ∉ p.elementType.toList ∧ .arrow ∈ looseOperators 0 p.elementType.toList := by
  have hword : ∀ word ∈ ["T[]", "T", "any", "Function", "*"],
      ¬ ('|' ∉ word.toList ∧ .arrow ∈ looseOperators 0 word.toList) :=
    fun word hmem hloose => arrow_not_loose word hmem hloose.2
  have htyped := p.typedAs_elementType
  generalize p.elementType = type at htyped ⊢
  cases htyped with
  | container named => exact iff_of_false (fun hbare => hbare.1 named) (hword _ (by simp))
  | value named types =>
      exact iff_of_false (not_isBareFunction_of_word types (arrow_not_loose _ (by simp)) (by simp))
        (hword _ (by simp))
  | any plain unnamed types =>
      exact iff_of_false (not_isBareFunction_of_word types (arrow_not_loose _ (by simp)) (by simp))
        (hword _ (by simp))
  | callback plain types named =>
      refine iff_of_true ⟨plain, .inl ⟨types, type, named⟩⟩ ?_
      have hall : ∀ callback ∈ callbackTypes, '|' ∉ callback.2.toList
          ∧ .arrow ∈ looseOperators 0 callback.2.toList := by decide
      exact hall _ named
  | function plain types unnamed =>
      exact iff_of_false
        (not_isBareFunction_of_word types (arrow_not_loose _ (by simp)) fun _ => unnamed)
        (hword _ (by simp))
  | union plain typed noFunction =>
      rcases htypes : p.types with _ | ⟨type, _ | ⟨next, rest⟩⟩
      · exact absurd htypes h.types_ne_nil
      · have hbar := (h.types_clean type (by rw [htypes]; exact List.mem_cons_self)).1
        rw [String.intercalate_singleton, and_iff_right hbar, IsBareFunction, and_iff_right plain,
          or_iff_right fun hfunction => noFunction hfunction.1, htypes]
        simp
      · have hbar : '|' ∈ ("|".intercalate (type :: next :: rest)).toList := by
          rw [String.toList_intercalate, List.map_cons, List.map_cons, List.intercalate_cons_cons]
          simp
        refine iff_of_false ?_ fun hloose => hloose.1 hbar
        rintro ⟨-, ⟨hfunction, -⟩ | ⟨only, honly, -⟩⟩
        · exact noFunction hfunction
        · simp [htypes] at honly

/-! ## Declarations -/

def label (p : Param) (isLast : Bool) : String :=
  (if p.spread && isLast then "..." else "") ++ p.name ++ (if p.optional then "?" else "") ++ ": "

theorem declare_eq (p : Param) (isLast : Bool) :
    p.declare isLast = p.label isLast ++ p.declaredType := by
  rw [declare, label, String.append_assoc]

/-- Only the position of a parameter decides whether it is declared as the last one. -/
theorem declareAll_eq (params : List Param) : declareAll params
    = params.mapIdx fun i p => p.label (i + 1 = params.length) ++ p.declaredType := by
  induction params with
  | nil => rfl
  | cons p ps ih =>
      cases ps with
      | nil => simp [declareAll, declare_eq]
      | cons q qs =>
          rw [declareAll, ih, declare_eq]
          · simp
          · simp

end Param

theorem ParamTag.isProper_of_parse {t : ParamTag} {p : Param} (h : t.parse = .ok p) :
    ParamTag.IsProper p := by
  obtain ⟨htype, hname, -⟩ := parse_eq_ok_iff.mp h
  obtain ⟨q, hq, hproper⟩ := exists_parse htype hname
  exact Except.ok.inj (hq.symm.trans h) ▸ hproper

/-- **Which spread parameters are declared with an array.** The declaration of an array function
lists all its parameters, each with a type that does not depend on where it stands. The type of a
spread parameter denotes the array of the type that it would have without the dots, except for one
kind of parameter: those of a single function type, be it documented with an arrow or known from the
name of a callback. -/
theorem spread_verdict {e : Entry} {line : String} (h : e.declaration = .ok (some line)) :
    ∃ params : List Param, e.params.mapM ParamTag.parse = .ok params
      ∧ line = e.name ++ "<T>(" ++ ", ".intercalate (params.mapIdx fun i p =>
          p.label (i + 1 = params.length) ++ p.declaredType) ++ "): " ++ arrayReturnType e.returnType
      ∧ ∀ p ∈ params, p.spread →
          (IsArrayOf ({ p with spread := false } : Param).declaredType p.declaredType
            ↔ ¬ p.IsBareFunction) := by
  obtain ⟨hsound, rfl⟩ := Entry.declaration_eq_some_iff.mp h
  have hparams := ParamTag.mapM_parse_of_forall hsound.read
  refine ⟨_, hparams, by rw [Category.arrayLine, Param.declareAll_eq], fun p hp hspread => ?_⟩
  obtain ⟨t, -, ht⟩ := exists_of_mem_mapM hparams hp
  have hdeclared : p.declaredType = Param.arrayOf p.elementType := if_pos hspread
  have hwithout : ({ p with spread := false } : Param).declaredType = p.elementType := rfl
  rw [hdeclared, hwithout, Param.isArrayOf_arrayOf,
    Param.isBareFunction_iff (ParamTag.isProper_of_parse ht), not_and_or, not_not]

/-- A union of types, spread over all arguments but the last. -/
theorem spread_verdict_union :
    (⟨"pullAt", "Array", [⟨"Array", "array", ""⟩, ⟨"...(number|number[])", "[indexes]", ""⟩,
        ⟨"*", "value", ""⟩], some ("*", ""), false, true⟩ : Entry).declaration
        = .ok (some "pullAt<T>(array: T[], indexes?: (number|number[])[], value: T): T")
      ∧ IsArrayOf "number|number[]" "(number|number[])[]" := by
  have hdeclaration : (⟨"pullAt", "Array", [⟨"Array", "array", ""⟩,
      ⟨"...(number|number[])", "[indexes]", ""⟩, ⟨"*", "value", ""⟩], some ("*", ""), false, true⟩
        : Entry).declaration
      = .ok (some "pullAt<T>(array: T[], indexes?: (number|number[])[], value: T): T") := by
    decide +kernel
  obtain ⟨params, hparams, -, harray⟩ := spread_verdict hdeclaration
  have hread : params = [⟨["Array"], "array", false, false⟩,
      ⟨["number", "number[]"], "indexes", true, true⟩, ⟨["*"], "value", false, false⟩] := by
    have hmapM : [(⟨"Array", "array", ""⟩ : ParamTag), ⟨"...(number|number[])", "[indexes]", ""⟩,
        ⟨"*", "value", ""⟩].mapM ParamTag.parse
        = .ok [⟨["Array"], "array", false, false⟩,
          ⟨["number", "number[]"], "indexes", true, true⟩, ⟨["*"], "value", false, false⟩] := by
      decide +kernel
    exact Except.ok.inj (hparams.symm.trans hmapM)
  have hnot : ¬ (⟨["number", "number[]"], "indexes", true, true⟩ : Param).IsBareFunction := by
    rintro ⟨-, ⟨hfunction, -⟩ | ⟨type, htype, -⟩⟩
    · simp at hfunction
    · simp at htype
  exact ⟨hdeclaration, (harray _ (by simp [hread]) rfl).mpr hnot⟩

/-- A spread callback: the brackets go to what it returns, and the arguments are no array. -/
theorem declaration_spread_callback :
    (⟨"over", "Array", [⟨"Array", "array", ""⟩, ⟨"...Function", "iteratee", ""⟩], none, false, true⟩
        : Entry).declaration
        = .ok (some "over<T>(array: T[], ...iteratee: (value: T) => any[]): void")
      ∧ (⟨["Function"], "iteratee", false, false⟩ : Param).declaredType = "(value: T) => any"
      ∧ (⟨["Function"], "iteratee", false, true⟩ : Param).declaredType = "(value: T) => any[]"
      ∧ ¬ IsArrayOf "(value: T) => any" "(value: T) => any[]" := by
  have harrow : .arrow ∈ looseOperators 0 "(value: T) => any".toList := by decide
  refine ⟨by decide +kernel, by decide +kernel, by decide +kernel, ?_⟩
  rintro (⟨-, hnone⟩ | hparenthesised)
  · rw [hnone] at harrow
    cases harrow
  · exact absurd hparenthesised (by decide +kernel)

end CurriedTypings.Docs
