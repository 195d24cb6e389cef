import CurriedTypings.CommandLine.Run
import CurriedTypings.Proofs.SpreadTypes
import Mathlib.Algebra.GroupWithZero.Nat

/-!
# Lines and declarations

Rendering puts every declaration on a line of its own, and a run reports the number of lines. Names
and types of an entry are copied into its declaration as they are written, line breaks included, so
a declaration may be more than one line (`lineCount_broken_name`).

`Entry.SpansLines` says from the text of an entry when this is so. A line break in a name or in the
documented return type always gets through; one in a type text does, unless the parameter is named
as a container and its types are ignored. The headline theorem `render_lines` counts the lines in all
cases, and says that they are the declarations, one by one, if no declared entry spans lines.
-/

namespace CurriedTypings.Docs

/-! ## Lines -/

/-- A line without the carriage return at its end. -/
def dropReturn (line : List Char) : List Char :=
  if line.getLast? = some '\r' then line.dropLast else line

/-- The lines of a text of which a part of the first line has been read. A line ends at a line feed;
a carriage return in front of it belongs to the end. -/
def linesFrom (line : List Char) : List Char → List (List Char)
  | [] => if line = [] then [] else [line]
  | c :: cs => if c = '\n' then dropReturn line :: linesFrom [] cs else linesFrom (line ++ [c]) cs

def lines (text : String) : List String := (linesFrom [] text.toList).map String.ofList

def onLines (declarations : List String) : String := String.join (declarations.map (· ++ "\n"))

theorem length_linesFrom {line cs : List Char} (h : '\n' ∉ line) : (linesFrom line cs).length
    = cs.count '\n' + if (line ++ cs).getLast?.all (· = '\n') then 0 else 1 := by
  induction cs generalizing line with
  | nil =>
      unfold linesFrom
      by_cases hline : line = []
      · simp [hline]
      · have hlast : line.getLast hline ≠ '\n' := fun hbreak => h (hbreak ▸ List.getLast_mem hline)
        simp [hline, List.getLast?_eq_some_getLast hline, hlast]
  | cons c cs ih =>
      unfold linesFrom
      by_cases hc : c = '\n'
      · have hlast : (line ++ '\n' :: cs).getLast?.all (· = '\n') = cs.getLast?.all (· = '\n') := by
          cases cs with
          | nil => simp
          | cons d cs =>
              rw [List.getLast?_append_of_ne_nil _ (List.cons_ne_nil _ _), List.getLast?_cons_cons]
        rw [if_pos hc, List.length_cons, ih List.not_mem_nil, hc, List.count_cons_self, hlast,
          List.nil_append, Nat.add_right_comm]
      · have hline : '\n' ∉ line ++ [c] := by simp [h, Ne.symm hc]
        rw [if_neg hc, ih hline, List.count_cons_of_ne hc, List.append_assoc, List.singleton_append]

/-- Lines are counted without being listed. -/
theorem length_lines (text : String) : (lines text).length = lineCount text := by
  rw [lines, List.length_map, length_linesFrom List.not_mem_nil, List.nil_append, lineCount]

theorem linesFrom_append {cs : List Char} (h : '\n' ∉ cs) (line rest : List Char) :
    linesFrom line (cs ++ '\n' :: rest) = dropReturn (line ++ cs) :: linesFrom [] rest := by
  induction cs generalizing line with
  | nil => simp [linesFrom]
  | cons c cs ih =>
      have hc : c ≠ '\n' := fun hbreak => h (hbreak ▸ List.mem_cons_self)
      have hcs : '\n' ∉ cs := fun hbreak => h (List.mem_cons_of_mem c hbreak)
      rw [List.cons_append, linesFrom, if_neg hc, ih hcs, List.append_assoc,
        List.singleton_append]

theorem toList_onLines_cons (d : String) (ds : List String) :
    (onLines (d :: ds)).toList = d.toList ++ '\n' :: (onLines ds).toList := by
  simp [onLines, String.toList_join]

/-- Declarations of one line each are the lines again, but for carriage returns. -/
theorem linesFrom_onLines {ds : List String} (h : ∀ d ∈ ds, '\n' ∉ d.toList) :
    linesFrom [] (onLines ds).toList = ds.map fun d => dropReturn d.toList := by
  induction ds with
  | nil => rfl
  | cons d ds ih =>
      obtain ⟨hd, hds⟩ := List.forall_mem_cons.mp h
      rw [toList_onLines_cons, linesFrom_append hd, ih hds, List.nil_append, List.map_cons]

theorem lineCount_onLines (ds : List String) :
    lineCount (onLines ds) = (ds.map fun d => d.toList.count '\n' + 1).sum := by
  have hcount : (onLines ds).toList.count '\n'
      = (ds.map fun d => d.toList.count '\n' + 1).sum := by
    induction ds with
    | nil => rfl
    | cons d ds ih =>
        rw [toList_onLines_cons, List.count_append, List.count_cons_self, ih, List.map_cons,
          List.sum_cons]
        omega
  have hlast : (onLines ds).toList.getLast?.all (· = '\n') := by
    rcases List.eq_nil_or_concat ds with rfl | ⟨ds, d, rfl⟩
    · rfl
    · simp [onLines, String.toList_join]
  rw [lineCount, if_pos hlast, hcount, Nat.add_zero]

theorem length_le_lineCount_onLines (ds : List String) : ds.length ≤ lineCount (onLines ds) := by
  rw [lineCount_onLines]
  induction ds with
  | nil => exact Nat.le_refl _
  | cons d ds ih =>
      rw [List.map_cons, List.sum_cons, List.length_cons]
      omega

/-- A line break more makes a line more. -/
theorem lineCount_onLines_eq_length_iff {ds : List String} :
    lineCount (onLines ds) = ds.length ↔ ∀ d ∈ ds, '\n' ∉ d.toList := by
  induction ds with
  | nil => exact iff_of_true rfl (by simp)
  | cons d ds ih =>
      have hle := length_le_lineCount_onLines ds
      rw [lineCount_onLines] at ih hle ⊢
      rw [List.forall_mem_cons, ← ih, ← List.count_eq_zero, List.map_cons, List.sum_cons,
        List.length_cons]
      omega

theorem dropReturn_eq_self_iff {line : List Char} :
    dropReturn line = line ↔ line.getLast? ≠ some '\r' := by
  unfold dropReturn
  split
  case isTrue h =>
    refine iff_of_false (fun hsame => ?_) (not_not.mpr h)
    have hlength := congrArg List.length hsame
    have hpos := List.length_pos_of_mem (List.mem_of_getLast? h)
    rw [List.length_dropLast] at hlength
    omega
  case isFalse h => exact iff_of_true rfl h

/-- Declarations are found again as the lines exactly if each is one line that the end of the line
takes nothing from. -/
theorem lines_onLines_eq_iff {ds : List String} : lines (onLines ds) = ds ↔
    ∀ d ∈ ds, '\n' ∉ d.toList ∧ d.toList.getLast? ≠ some '\r' := by
  have hunbroken : (∀ d ∈ ds, '\n' ∉ d.toList) → (lines (onLines ds) = ds ↔
      ∀ d ∈ ds, d.toList.getLast? ≠ some '\r') := by
    intro h
    rw [lines, linesFrom_onLines h, List.map_map]
    conv_lhs => rhs; rw [← List.map_id ds]
    rw [List.map_inj_left]
    refine forall₂_congr fun d _ => ?_
    rw [← dropReturn_eq_self_iff, Function.comp_apply, id_eq, ← String.toList_inj,
      String.toList_ofList]
  constructor
  · intro h
    have hbreaks : ∀ d ∈ ds, '\n' ∉ d.toList := by
      rw [← lineCount_onLines_eq_length_iff, ← length_lines, h]
    intro d hd
    exact ⟨hbreaks d hd, (hunbroken hbreaks).mp h d hd⟩
  · intro h
    exact (hunbroken fun d hd => (h d hd).1).mpr fun d hd => (h d hd).2

/-! ## Line breaks in the text of an entry -/

theorem mem_intercalate_iff {c : Char} {sep : String} {parts : List String} (h : c ∉ sep.toList) :
    c ∈ (sep.intercalate parts).toList ↔ ∃ part ∈ parts, c ∈ part.toList := by
  rw [String.toList_intercalate]
  constructor
  · intro hmem
    rcases mem_intercalate hmem with hsep | ⟨part, hpart, hc⟩
    · exact absurd hsep h
    · obtain ⟨text, htext, rfl⟩ := List.mem_map.mp hpart
      exact ⟨text, htext, hc⟩
  · intro ⟨part, hpart, hc⟩
    exact mem_intercalate_of_mem (List.mem_map_of_mem hpart) hc

theorem mem_splitOn_iff {a c : Char} {cs : List Char} (h : c ≠ a) :
    (∃ part ∈ cs.splitOn a, c ∈ part) ↔ c ∈ cs := by
  constructor
  · intro ⟨part, hpart, hc⟩
    exact (forall_mem_splitOn part hpart).2 c hc
  · intro hc
    have hjoined : [a].intercalate (cs.splitOn a) = cs := List.intercalate_splitOn a
    rw [← hjoined] at hc
    rcases mem_intercalate hc with hsep | hpart
    · exact absurd (List.mem_singleton.mp hsep) h
    · exact hpart

namespace ParamTag

variable {t : ParamTag}

/-- Nothing but the name is taken from a name text with a line break. -/
theorem newline_mem_bareName_iff (h : ¬ LacksName t.name) :
    '\n' ∈ t.reading.name.toList ↔ '\n' ∈ t.name.toList := by
  have hfront : '\n' ∈ nameFront t.name.toList ↔ '\n' ∈ t.name.toList := by
    have hall : nameFront t.name.toList ++ t.name.toList.dropWhile (fun c => !endsName c)
        = t.name.toList := List.takeWhile_append_dropWhile
    have hbehind : '\n' ∉ t.name.toList.dropWhile fun c => !endsName c :=
      fun hbreak => h (.inr (.inr hbreak))
    conv_rhs => rw [← hall]
    rw [List.mem_append, or_iff_left hbehind]
  have hbracket : '\n' ∉ Text.frontOf ['['] t.name.toList := by
    intro hbreak
    exact absurd (List.mem_singleton.mp (Text.mem_of_mem_frontOf hbreak)) (by decide)
  rw [reading, String.toList_ofList, ← hfront, bareName]
  split
  · rfl
  · rw [nameFront_eq t.name.toList, List.mem_append, or_iff_right hbracket]

theorem newline_mem_types_iff (h : ¬ HasInnerParenthesis t.type) :
    (∃ type ∈ t.reading.types, '\n' ∈ type.toList) ↔ '\n' ∈ t.type.toList := by
  have hfixed : ∀ {text cs : List Char}, '\n' ∉ text → '\n' ∉ Text.frontOf text cs :=
    fun htext hbreak => htext (Text.mem_of_mem_frontOf hbreak)
  have hclosing : '\n' ∉ closing t.type.toList := by
    rcases closing_cases h with hclosing | hclosing <;> simp [hclosing]
  have halternatives : '\n' ∈ alternatives t.type.toList ↔ '\n' ∈ t.type.toList := by
    conv_rhs => rw [← Text.frontOf_append_behind ['.', '.', '.'] t.type.toList, ← undotted,
      ← Text.frontOf_append_behind ['('] (undotted t.type.toList), ← alternatives_append_closing]
    rw [List.mem_append, List.mem_append, List.mem_append, or_iff_left hclosing,
      or_iff_right (hfixed (by decide)), or_iff_right (hfixed (by decide))]
  rw [← halternatives, ← mem_splitOn_iff (a := '|') (by decide), reading]
  simp

end ParamTag

namespace Param

variable {p : Param}

/-- The documented types of a container are not looked at. -/
theorem newline_mem_elementType_iff : '\n' ∈ p.elementType.toList ↔
    p.name ∉ containerNames ∧ ∃ type ∈ p.types, '\n' ∈ type.toList := by
  have htyped := p.typedAs_elementType
  generalize p.elementType = type at htyped ⊢
  cases htyped with
  | container named => exact iff_of_false (by simp) fun h => h.1 named
  | value named types => simp [types]
  | any plain unnamed types => simp [types]
  | callback plain types named =>
      have hall : ∀ callback ∈ callbackTypes, '\n' ∉ callback.2.toList := by simp [callbackTypes]
      exact iff_of_false (hall _ named) (by simp [types])
  | function plain types unnamed => simp [types]
  | union plain typed noFunction => rw [mem_intercalate_iff (by simp), and_iff_right plain]

theorem newline_mem_declaredType_iff :
    '\n' ∈ p.declaredType.toList ↔ '\n' ∈ p.elementType.toList := by
  unfold declaredType arrayOf
  split
  · split <;> simp
  · rfl

theorem newline_mem_label_iff {isLast : Bool} :
    '\n' ∈ (p.label isLast).toList ↔ '\n' ∈ p.name.toList := by
  unfold label
  split <;> split <;> simp

end Param

theorem arrayReturnType_cases (documented : String) :
    (documented = "Array" ∧ arrayReturnType documented = "T[]")
      ∨ (documented = "*" ∧ arrayReturnType documented = "T")
      ∨ arrayReturnType documented = documented := by
  unfold arrayReturnType
  split_ifs with harray hany
  · exact .inl ⟨harray, rfl⟩
  · exact .inr (.inl ⟨hany, rfl⟩)
  · exact .inr (.inr rfl)

theorem newline_mem_arrayReturnType_iff {documented : String} :
    '\n' ∈ (arrayReturnType documented).toList ↔ '\n' ∈ documented.toList := by
  rcases arrayReturnType_cases documented with ⟨rfl, htype⟩ | ⟨rfl, htype⟩ | htype
  · rw [htype]; simp
  · rw [htype]; simp
  · rw [htype]

theorem getLast?_arrayReturnType_iff {documented : String} :
    (arrayReturnType documented).toList.getLast? = some '\r'
      ↔ documented.toList.getLast? = some '\r' := by
  rcases arrayReturnType_cases documented with ⟨rfl, htype⟩ | ⟨rfl, htype⟩ | htype
  · rw [htype]; simp
  · rw [htype]; simp
  · rw [htype]

theorem newline_mem_declareAll_iff {params : List Param} :
    (∃ text ∈ Param.declareAll params, '\n' ∈ text.toList)
      ↔ ∃ p ∈ params, '\n' ∈ p.name.toList ∨ '\n' ∈ p.elementType.toList := by
  have hparam : ∀ (p : Param) isLast, '\n' ∈ (p.label isLast ++ p.declaredType).toList
      ↔ '\n' ∈ p.name.toList ∨ '\n' ∈ p.elementType.toList := by
    intro p isLast
    rw [String.toList_append, List.mem_append, Param.newline_mem_label_iff,
      Param.newline_mem_declaredType_iff]
  rw [Param.declareAll_eq]
  constructor
  · intro ⟨text, htext, hbreak⟩
    obtain ⟨i, hi, rfl⟩ := List.mem_mapIdx.mp htext
    exact ⟨_, List.getElem_mem hi, (hparam _ _).mp hbreak⟩
  · intro ⟨p, hp, hbreak⟩
    obtain ⟨i, hi, rfl⟩ := List.mem_iff_getElem.mp hp
    exact ⟨_, List.mem_mapIdx.mpr ⟨i, hi, rfl⟩, (hparam _ _).mpr hbreak⟩

namespace Entry

variable {e : Entry} {line : String}

def isDeclared (e : Entry) : Bool := e.isVisible && e.category = "Array"

/-- A line break stands in the text of an entry where it gets into the declaration. -/
def SpansLines (e : Entry) : Prop :=
  '\n' ∈ e.name.toList ∨ '\n' ∈ e.returnType.toList
    ∨ ∃ t ∈ e.params, '\n' ∈ t.name.toList
      ∨ '\n' ∈ t.type.toList ∧ t.reading.name ∉ Param.containerNames

instance (e : Entry) : Decidable e.SpansLines :=
  inferInstanceAs (Decidable ('\n' ∈ e.name.toList ∨ '\n' ∈ e.returnType.toList
    ∨ ∃ t ∈ e.params, '\n' ∈ t.name.toList
      ∨ '\n' ∈ t.type.toList ∧ t.reading.name ∉ Param.containerNames))

theorem newline_mem_declaration_iff (h : e.declaration = .ok (some line)) :
    '\n' ∈ line.toList ↔ e.SpansLines := by
  obtain ⟨hsound, rfl⟩ := declaration_eq_some_iff.mp h
  have htags : (∃ p ∈ e.params.map ParamTag.reading,
        '\n' ∈ p.name.toList ∨ '\n' ∈ p.elementType.toList)
      ↔ ∃ t ∈ e.params, '\n' ∈ t.name.toList
        ∨ '\n' ∈ t.type.toList ∧ t.reading.name ∉ Param.containerNames := by
    simp only [List.mem_map, exists_exists_and_eq_and]
    refine exists_congr fun t => and_congr_right fun ht => ?_
    obtain ⟨htype, hname⟩ := not_or.mp (hsound.read t ht)
    rw [ParamTag.newline_mem_bareName_iff hname, Param.newline_mem_elementType_iff,
      ParamTag.newline_mem_types_iff htype, and_comm]
  have hlist : '\n' ∈ (", ".intercalate (Param.declareAll (e.params.map ParamTag.reading))).toList
      ↔ ∃ t ∈ e.params, '\n' ∈ t.name.toList
        ∨ '\n' ∈ t.type.toList ∧ t.reading.name ∉ Param.containerNames := by
    rw [mem_intercalate_iff (by simp), newline_mem_declareAll_iff, htags]
  have hopening : '\n' ∉ "<T>(".toList := by simp
  have hclosing : '\n' ∉ "): ".toList := by simp
  simp only [Category.arrayLine, String.toList_append, List.mem_append, hlist, hopening, hclosing,
    newline_mem_arrayReturnType_iff, SpansLines, or_false, or_assoc]
  exact or_congr_right or_comm

theorem endsInReturn_iff (h : e.declaration = .ok (some line)) :
    line.toList.getLast? = some '\r' ↔ e.returnType.toList.getLast? = some '\r' := by
  obtain ⟨-, rfl⟩ := declaration_eq_some_iff.mp h
  have hcolon : ∀ front : String, (front ++ "): ").toList.getLast? = some ' ' := by
    intro front
    rw [String.toList_append, List.getLast?_append]
    rfl
  have hreturn := @getLast?_arrayReturnType_iff e.returnType
  rw [Category.arrayLine, String.toList_append, List.getLast?_append, hcolon, ← hreturn]
  cases (arrayReturnType e.returnType).toList.getLast? with
  | none => simp
  | some c => rfl

/-- Of the visible entries, the array functions have declarations. -/
theorem isSome_declaration {d : Option String} (h : e.declaration = .ok d) :
    d.isSome ↔ e.category = "Array" := by
  obtain ⟨c, hsound⟩ := not_defective_iff.mp (exists_declaration_iff.mp ⟨d, h⟩)
  obtain rfl := Except.ok.inj (hsound.declaration.symm.trans h)
  have hcategory : e.category = "Array" ↔ c = .array := by
    rw [← hsound.known]
    cases c <;> simp [Category.name]
  rw [hcategory]
  split <;> simp [*]

end Entry

/-! ## Rendered texts -/

theorem join_lineOf (ds : List (Option String)) :
    String.join (ds.map Entry.lineOf) = onLines (ds.filterMap id) := by
  rw [← String.toList_inj]
  induction ds with
  | nil => rfl
  | cons d ds ih =>
      cases d with
      | none => simpa [String.toList_join, Entry.lineOf] using ih
      | some line =>
          rw [List.filterMap_cons_some (f := id) rfl, toList_onLines_cons, ← ih]
          simp [String.toList_join, Entry.lineOf]

/-- The declarations are those of the declared entries, in order. -/
theorem forall₂_filterMap_declaration {es : List Entry} {ds : List (Option String)}
    (h : List.Forall₂ (fun e d => e.declaration = .ok d) es ds) :
    List.Forall₂ (fun e line => e.declaration = .ok (some line))
      (es.filter fun e => e.category = "Array") (ds.filterMap id) := by
  induction h with
  | nil => exact .nil
  | @cons e d es ds hd hds ih =>
      have hsome := Entry.isSome_declaration hd
      cases d with
      | none =>
          have hcategory : e.category ≠ "Array" := fun hcategory => nomatch hsome.mpr hcategory
          rw [List.filter_cons_of_neg (by simpa using hcategory), List.filterMap_cons_none rfl]
          exact ih
      | some line =>
          rw [List.filter_cons_of_pos (by simpa using hsome.mp rfl),
            List.filterMap_cons_some (f := id) rfl]
          exact .cons hd ih

/-- What goes for the one of two lists in step goes for the other. -/
theorem forall_mem_iff_of_forall₂ {α β : Type} {R : α → β → Prop} {P : α → Prop} {Q : β → Prop}
    {xs : List α} {ys : List β} (h : List.Forall₂ R xs ys) (same : ∀ x y, R x y → (P x ↔ Q y)) :
    (∀ x ∈ xs, P x) ↔ ∀ y ∈ ys, Q y := by
  induction h with
  | nil => exact iff_of_true (by simp) (by simp)
  | cons hxy _ ih => rw [List.forall_mem_cons, List.forall_mem_cons, same _ _ hxy, ih]

theorem exists_declarations {es : List Entry} {text : String} (h : render es = .ok text) :
    ∃ declarations, List.Forall₂ (fun e d => e.declaration = .ok (some d))
      (es.filter Entry.isDeclared) declarations ∧ text = onLines declarations := by
  obtain ⟨ds, hds, htext⟩ := render_eq_ok_iff.mp h
  refine ⟨ds.filterMap id, ?_, by rw [htext, join_lineOf]⟩
  have hdeclared : es.filter Entry.isDeclared
      = (es.filter Entry.isVisible).filter fun e => e.category = "Array" := by
    rw [List.filter_filter]
    exact List.filter_congr fun e _ => Bool.and_comm _ _
  rw [hdeclared]
  exact forall₂_filterMap_declaration (mapM_eq_ok_iff.mp hds)

theorem renderDocs_of_render {es : List Entry} {path source text : String}
    (hsource : ofDocument source = .ok es) (h : render es = .ok text) :
    CommandLine.renderDocs path (.ok source)
      = .ok ⟨[.write text, .flush], .docs (lineCount text)⟩ := by
  simp only [CommandLine.renderDocs, CommandLine.readInput, bind_ok, hsource, h]

/-- **The lines of a rendered text.** The text consists of the declarations of the visible array
functions, in order, each with a line feed behind it; the number of lines is what a run reports. A
declaration has a line more for every line break in it. So there is one line for each of these
entries exactly if none of them has a line break in its name, its documented return type, the name
text of a parameter, or the type text of a parameter that is not named as a container. The lines are
then the declarations, one by one, exactly if no documented return type ends with a carriage return,
which would be taken for a part of the line's end. -/
theorem render_lines {es : List Entry} {text : String} (h : render es = .ok text) :
    ∃ declarations : List String,
      List.Forall₂ (fun e d => e.declaration = .ok (some d)) (es.filter Entry.isDeclared) declarations
      ∧ text = onLines declarations
      ∧ (∀ path source, ofDocument source = .ok es → CommandLine.renderDocs path (.ok source)
          = .ok ⟨[.write text, .flush], .docs (lines text).length⟩)
      ∧ (lines text).length = (declarations.map fun d => d.toList.count '\n' + 1).sum
      ∧ ((lines text).length = (es.filter Entry.isDeclared).length ↔
          ∀ e ∈ es.filter Entry.isDeclared, ¬ e.SpansLines)
      ∧ (lines text = declarations ↔ ∀ e ∈ es.filter Entry.isDeclared,
          ¬ e.SpansLines ∧ e.returnType.toList.getLast? ≠ some '\r') := by
  obtain ⟨declarations, hdeclarations, rfl⟩ := exists_declarations h
  refine ⟨declarations, hdeclarations, rfl, fun path source hsource => ?_, ?_, ?_, ?_⟩
  · rw [renderDocs_of_render hsource h, length_lines]
  · rw [length_lines, lineCount_onLines]
  · rw [length_lines, hdeclarations.length_eq, lineCount_onLines_eq_length_iff]
    exact (forall_mem_iff_of_forall₂ hdeclarations fun e d hd =>
      not_congr (Entry.newline_mem_declaration_iff hd).symm).symm
  · rw [lines_onLines_eq_iff]
    exact (forall_mem_iff_of_forall₂ hdeclarations fun e d hd =>
      and_congr (not_congr (Entry.newline_mem_declaration_iff hd).symm)
        (not_congr (Entry.endsInReturn_iff hd).symm)).symm

/-- Two array functions, with a hidden entry and one of another category between them. -/
theorem render_lines_two :
    render [⟨"head", "Array", [⟨"Array", "array", ""⟩], some ("*", ""), false, true⟩,
        ⟨"a\nb", "Lost", [], none, true, true⟩, ⟨"now", "Date", [], none, false, true⟩,
        ⟨"tail", "Array", [⟨"Array", "array", ""⟩], some ("Array", ""), false, true⟩]
        = .ok "head<T>(array: T[]): T\ntail<T>(array: T[]): T[]\n"
      ∧ (lines "head<T>(array: T[]): T\ntail<T>(array: T[]): T[]\n").length = 2 := by
  have hrender : render [⟨"head", "Array", [⟨"Array", "array", ""⟩], some ("*", ""), false, true⟩,
      ⟨"a\nb", "Lost", [], none, true, true⟩, ⟨"now", "Date", [], none, false, true⟩,
      ⟨"tail", "Array", [⟨"Array", "array", ""⟩], some ("Array", ""), false, true⟩]
      = .ok "head<T>(array: T[]): T\ntail<T>(array: T[]): T[]\n" := by
    decide +kernel
  obtain ⟨declarations, -, -, -, -, hcount, -⟩ := render_lines hrender
  exact ⟨hrender, hcount.mpr (by decide +kernel)⟩

/-- An array function whose name has two lines. -/
theorem lineCount_broken_name :
    render [⟨"a\nb", "Array", [⟨"Array", "array", ""⟩], none, false, true⟩]
        = .ok "a\nb<T>(array: T[]): void\n"
      ∧ [(⟨"a\nb", "Array", [⟨"Array", "array", ""⟩], none, false, true⟩ : Entry)].countP
        Entry.isDeclared = 1
      ∧ lines "a\nb<T>(array: T[]): void\n" = ["a", "b<T>(array: T[]): void"]
      ∧ lineCount "a\nb<T>(array: T[]): void\n" = 2 := by
  refine ⟨?_, ?_, ?_, ?_⟩ <;> decide +kernel

end CurriedTypings.Docs
