import CurriedTypings.Docs
import CurriedTypings.Proofs.TagReading
import CurriedTypings.Proofs.Traversal

/-!
# Rendering doc entries

Rendering is a traversal of the visible entries: it joins the lines of their declarations, and
gives up at the first that fails (`render_eq`). All that is said of lists of entries follows.

Why a single entry fails is listed in `Entry.Defect`, without the functions that find it out:
its category is none of the eleven, one of its tags is malformed, or its first parameter does not
suit its category. Each reason is listed together with the absence of those before it, so an entry
has at most one defect, and it is the one that is reported (`Entry.declaration_eq_error_iff`).

The headline theorem `render_verdict` joins the two: the defect of the first visible entry that
has one is reported, and hidden entries are neither rendered nor looked at.
-/

namespace CurriedTypings.Docs

namespace Param

variable {p : Param}

theorem hasTypes_iff {types : List String} : p.hasTypes types = true ↔ p.types = types :=
  decide_eq_true_iff

theorem accepts_iff {type : String} : p.accepts type = true ↔ type ∈ p.types :=
  List.contains_iff_mem

end Param

/-! ## Categories -/

namespace Category

theorem mem_all (c : Category) : c ∈ all := by cases c <;> decide

theorem ofName?_eq_some_iff {s : String} {c : Category} : ofName? s = some c ↔ c.name = s := by
  constructor
  · intro h
    have hname := List.find?_some h
    exact of_decide_eq_true hname
  · intro h
    rw [← h, ofName?_name]

theorem ofName?_eq_none_iff {s : String} : ofName? s = none ↔ ∀ c : Category, c.name ≠ s := by
  rw [ofName?, List.find?_eq_none]
  simp [mem_all]

/-- What is asked of the first parameter of a function, and what is reported if it is not met. -/
structure Demand where
  IsMet : Param → Prop
  reason : String

/-- Most categories ask for nothing. -/
def demand? : Category → Option Demand
  | array => some
      ⟨fun p => p.types = ["Array"], "first parameter of an Array function must be typed Array"⟩
  | collection => some
      ⟨fun p => "Array" ∈ p.types ∧ "Object" ∈ p.types,
        "first parameter of a Collection function must accept Array and Object"⟩
  | _ => none

/-- The first parameter is there and meets a demand. -/
def Demand.Meets (d : Demand) (params : List Param) : Prop := ∃ p ∈ params.head?, d.IsMet p

variable {c : Category} {function returnType : String} {params : List Param}

theorem any_hasTypes_iff : (params.head?.any fun p => p.hasTypes ["Array"]) = true
    ↔ ∃ p ∈ params.head?, p.types = ["Array"] := by
  simp only [Option.any_eq_true, Param.hasTypes_iff, Option.mem_def]

theorem any_accepts_iff :
    (params.head?.any fun p => p.accepts "Array" && p.accepts "Object") = true
      ↔ ∃ p ∈ params.head?, "Array" ∈ p.types ∧ "Object" ∈ p.types := by
  simp only [Option.any_eq_true, Bool.and_eq_true, Param.accepts_iff, Option.mem_def]

/-- The declaration of an array function. -/
def arrayLine (function returnType : String) (params : List Param) : String :=
  function ++ "<T>(" ++ ", ".intercalate (Param.declareAll params) ++ "): "
    ++ arrayReturnType returnType

theorem convert_of_meets (h : ∀ d ∈ c.demand?, d.Meets params) :
    c.convert function returnType params
      = .ok (if c = array then some (arrayLine function returnType params) else none) := by
  cases c with
  | array =>
      rw [convert, convertArray, if_pos (any_hasTypes_iff.mpr (h _ rfl)), if_pos rfl]
      rfl
  | collection =>
      rw [convert, checkCollection, if_pos (any_accepts_iff.mpr (h _ rfl))]
      rfl
  | _ => rfl

theorem convert_of_not_meets {d : Demand} (hd : d ∈ c.demand?) (h : ¬ d.Meets params) :
    c.convert function returnType params = .error (.assertionFailed function d.reason) := by
  cases c with
  | array =>
      obtain rfl := Option.some.inj hd
      rw [convert, convertArray, if_neg (mt any_hasTypes_iff.mp h)]
      rfl
  | collection =>
      obtain rfl := Option.some.inj hd
      rw [convert, checkCollection, if_neg (mt any_accepts_iff.mp h)]
      rfl
  | _ => cases hd

end Category

/-! ## Tags -/

namespace ParamTag

/-- A tag that is not read. -/
def Malformed (t : ParamTag) : Prop := HasInnerParenthesis t.type ∨ LacksName t.name

/-- What is reported of a malformed tag. -/
inductive Defect (t : ParamTag) : Error → Prop
  | type (inner : HasInnerParenthesis t.type) :
      Defect t (.patternMismatch t.type typePattern.written)
  | name (outer : ¬ HasInnerParenthesis t.type) (nameless : LacksName t.name) :
      Defect t (.patternMismatch t.name namePattern.written)

variable {t : ParamTag} {e : Error}

theorem parse_of_not_malformed (h : ¬ t.Malformed) : t.parse = .ok t.reading :=
  parse_eq_ok_iff.mpr ⟨fun htype => h (.inl htype), fun hname => h (.inr hname), rfl⟩

theorem exists_parse_iff : (∃ p, t.parse = .ok p) ↔ ¬ t.Malformed := by
  constructor
  · intro ⟨p, hp⟩
    obtain ⟨htype, hname, -⟩ := parse_eq_ok_iff.mp hp
    exact not_or.mpr ⟨htype, hname⟩
  · intro h
    exact ⟨_, parse_of_not_malformed h⟩

theorem Defect.parse (h : t.Defect e) : t.parse = .error e := by
  cases h with
  | type inner => exact parse_of_hasInnerParenthesis inner
  | name outer nameless => exact parse_of_lacksName outer nameless

theorem parse_eq_error_iff : t.parse = .error e ↔ t.Defect e := by
  refine ⟨fun h => ?_, Defect.parse⟩
  have hdefect : ∃ e', t.Defect e' := by
    by_cases htype : HasInnerParenthesis t.type
    · exact ⟨_, .type htype⟩
    · by_cases hname : LacksName t.name
      · exact ⟨_, .name htype hname⟩
      · exact nomatch h.symm.trans (parse_of_not_malformed (not_or.mpr ⟨htype, hname⟩))
  obtain ⟨e', he'⟩ := hdefect
  obtain rfl := Except.error.inj (he'.parse.symm.trans h)
  exact he'

/-- Tags are read one by one. -/
theorem mapM_parse_of_forall {tags : List ParamTag} (h : ∀ t ∈ tags, ¬ t.Malformed) :
    tags.mapM parse = .ok (tags.map reading) := by
  rw [mapM_eq_ok_iff, List.forall₂_map_right_iff, List.forall₂_same]
  exact fun t ht => parse_of_not_malformed (h t ht)

end ParamTag

/-! ## Entries -/

namespace Entry

/-- What is wrong with an entry. -/
inductive Defect (e : Entry) : Error → Prop
  | category (unknown : ∀ c : Category, c.name ≠ e.category) :
      Defect e (.unknownCategory e.name e.category)
  | tag {c : Category} {before after : List ParamTag} {t : ParamTag} {err : Error}
      (known : c.name = e.category) (tags : e.params = before ++ t :: after)
      (first : ∀ u ∈ before, ¬ u.Malformed) (defect : t.Defect err) : Defect e err
  | parameters {c : Category} {d : Category.Demand} (known : c.name = e.category)
      (read : ∀ t ∈ e.params, ¬ t.Malformed) (demand : d ∈ c.demand?)
      (unmet : ¬ d.Meets (e.params.map ParamTag.reading)) :
      Defect e (.assertionFailed e.name d.reason)

def Defective (e : Entry) : Prop := ∃ err, e.Defect err

variable {e : Entry} {err : Error}

theorem resolveCategory_of_known {c : Category} (h : c.name = e.category) :
    e.resolveCategory = .ok c := by
  rw [resolveCategory, Category.ofName?_eq_some_iff.mpr h]

theorem resolveCategory_of_unknown (h : ∀ c : Category, c.name ≠ e.category) :
    e.resolveCategory = .error (.unknownCategory e.name e.category) := by
  rw [resolveCategory, Category.ofName?_eq_none_iff.mpr h]

theorem declaration_of_known {c : Category} (known : c.name = e.category) :
    e.declaration = (do c.convert e.name e.returnType (← e.params.mapM ParamTag.parse)) := by
  rw [declaration, resolveCategory_of_known known]
  rfl

theorem Defect.declaration (h : e.Defect err) : e.declaration = .error err := by
  cases h with
  | category unknown => rw [Entry.declaration, resolveCategory_of_unknown unknown, bind_error]
  | @tag c before after t err known tags first defect =>
      have hparams : e.params.mapM ParamTag.parse = .error err := mapM_eq_error_iff.mpr
        ⟨before, t, after, tags, fun u hu => ParamTag.exists_parse_iff.mpr (first u hu), defect.parse⟩
      rw [declaration_of_known known, hparams, bind_error]
  | parameters known read demand unmet =>
      rw [declaration_of_known known, ParamTag.mapM_parse_of_forall read, bind_ok,
        Category.convert_of_not_meets demand unmet]

/-- This is the category of the entry, and nothing is wrong with the parameters. -/
structure Sound (e : Entry) (c : Category) : Prop where
  known : c.name = e.category
  read : ∀ t ∈ e.params, ¬ t.Malformed
  met : ∀ d ∈ c.demand?, d.Meets (e.params.map ParamTag.reading)

theorem Sound.declaration {c : Category} (h : e.Sound c) : e.declaration = .ok (if c = .array then
    some (Category.arrayLine e.name e.returnType (e.params.map ParamTag.reading)) else none) := by
  rw [declaration_of_known h.known, ParamTag.mapM_parse_of_forall h.read, bind_ok,
    Category.convert_of_meets h.met]

/-- An entry is sound, or it has a defect. -/
theorem sound_or_defective (e : Entry) : (∃ c, e.Sound c) ∨ e.Defective := by
  by_cases hknown : ∃ c : Category, c.name = e.category
  · obtain ⟨c, hc⟩ := hknown
    rcases mapM_cases ParamTag.parse e.params with
      ⟨-, -, hall⟩ | ⟨before, t, after, err, htags, hbefore, ht, -⟩
    · have hread : ∀ t ∈ e.params, ¬ t.Malformed :=
        fun t ht => ParamTag.exists_parse_iff.mp (hall t ht)
      by_cases hmet : ∀ d ∈ c.demand?, d.Meets (e.params.map ParamTag.reading)
      · exact .inl ⟨c, hc, hread, hmet⟩
      · push Not at hmet
        obtain ⟨d, hd, hunmet⟩ := hmet
        exact .inr ⟨_, .parameters hc hread hd hunmet⟩
    · exact .inr ⟨err, .tag hc htags (fun u hu => ParamTag.exists_parse_iff.mp (hbefore u hu))
        (ParamTag.parse_eq_error_iff.mp ht)⟩
  · exact .inr ⟨_, .category (not_exists.mp hknown)⟩

theorem declaration_eq_error_iff : e.declaration = .error err ↔ e.Defect err := by
  refine ⟨fun h => ?_, Defect.declaration⟩
  rcases e.sound_or_defective with ⟨c, hsound⟩ | ⟨err', hdefect⟩
  · exact nomatch h.symm.trans hsound.declaration
  · obtain rfl := Except.error.inj (hdefect.declaration.symm.trans h)
    exact hdefect

/-- Only array functions have a declaration. -/
theorem declaration_eq_some_iff {line : String} : e.declaration = .ok (some line) ↔
    e.Sound .array ∧ line = Category.arrayLine e.name e.returnType (e.params.map ParamTag.reading) := by
  constructor
  · intro h
    rcases e.sound_or_defective with ⟨c, hsound⟩ | ⟨err, hdefect⟩
    · by_cases hc : c = .array
      · subst hc
        rw [hsound.declaration, if_pos rfl] at h
        exact ⟨hsound, (Option.some.inj (Except.ok.inj h)).symm⟩
      · rw [hsound.declaration, if_neg hc] at h
        cases h
    · exact nomatch h.symm.trans hdefect.declaration
  · intro ⟨hsound, hline⟩
    rw [hsound.declaration, if_pos rfl, hline]

theorem not_defective_iff : ¬ e.Defective ↔ ∃ c, e.Sound c := by
  constructor
  · exact e.sound_or_defective.resolve_right
  · intro ⟨c, hsound⟩ ⟨err, hdefect⟩
    exact nomatch hsound.declaration.symm.trans hdefect.declaration

theorem exists_declaration_iff : (∃ d, e.declaration = .ok d) ↔ ¬ e.Defective := by
  constructor
  · intro ⟨d, hd⟩ ⟨err, hdefect⟩
    exact nomatch hd.symm.trans hdefect.declaration
  · intro h
    obtain ⟨c, hsound⟩ := not_defective_iff.mp h
    exact ⟨_, hsound.declaration⟩

/-- Only an array or a collection function can have parameters that do not suit it. -/
theorem Defect.of_other_category (h : e.Defect err) (harray : e.category ≠ "Array")
    (hcollection : e.category ≠ "Collection") :
    (∀ c : Category, c.name ≠ e.category) ∨ ∃ t ∈ e.params, t.Defect err := by
  cases h with
  | category unknown => exact .inl unknown
  | tag known tags first defect => exact .inr ⟨_, by rw [tags]; simp, defect⟩
  | @parameters c d known read demand unmet =>
      cases c with
      | array => exact absurd known.symm harray
      | collection => exact absurd known.symm hcollection
      | _ => cases demand

end Entry

/-! ## Lists of entries -/

variable {es : List Entry} {err : Error}

theorem render_cons_hidden {e : Entry} (h : e.isVisible = false) (es : List Entry) :
    render (e :: es) = render es := by
  rw [render, if_neg (by simp [h])]

theorem render_cons_visible {e : Entry} (h : e.isVisible = true) (es : List Entry) :
    render (e :: es) = (do
      let d ← e.declaration
      let rest ← render es
      return Entry.lineOf d ++ rest) := by
  rw [render, if_pos h]

/-- Rendering joins the lines of the visible entries, if all of them have a declaration. -/
theorem render_eq (es : List Entry) : render es
    = ((es.filter Entry.isVisible).mapM Entry.declaration).map
        fun ds => String.join (ds.map Entry.lineOf) := by
  induction es with
  | nil => rfl
  | cons e es ih =>
      cases hvisible : e.isVisible with
      | false => rw [render_cons_hidden hvisible, ih, List.filter_cons_of_neg (by simp [hvisible])]
      | true =>
          rw [render_cons_visible hvisible, ih, List.filter_cons_of_pos hvisible, List.mapM_cons]
          cases e.declaration with
          | error err => rfl
          | ok d =>
              rw [bind_ok, bind_ok]
              cases (es.filter Entry.isVisible).mapM Entry.declaration with
              | error err => rfl
              | ok ds => simp [Except.map, bind, Except.bind, pure, Except.pure]

theorem render_eq_ok_iff {text : String} : render es = .ok text ↔
    ∃ ds, (es.filter Entry.isVisible).mapM Entry.declaration = .ok ds
      ∧ text = String.join (ds.map Entry.lineOf) := by
  rw [render_eq]
  cases (es.filter Entry.isVisible).mapM Entry.declaration with
  | error err => simp [Except.map]
  | ok ds => simp [Except.map, eq_comm]

theorem render_append (xs ys : List Entry) : render (xs ++ ys) = (do
    let text ← render xs
    let rest ← render ys
    return text ++ rest) := by
  rw [render_eq, render_eq xs, render_eq ys, List.filter_append, List.mapM_append]
  cases (xs.filter Entry.isVisible).mapM Entry.declaration with
  | error err => rfl
  | ok ds =>
      cases (ys.filter Entry.isVisible).mapM Entry.declaration with
      | error err => rfl
      | ok ds' => simp [Except.map, bind, Except.bind, pure, Except.pure]

/-- What is reported is the defect of the first visible entry that has one. -/
theorem render_eq_error_iff : render es = .error err ↔ ∃ before e after,
    es = before ++ e :: after ∧ (∀ b ∈ before, b.isVisible → ¬ b.Defective)
      ∧ e.isVisible ∧ e.Defect err := by
  have herror : render es = .error err
      ↔ (es.filter Entry.isVisible).mapM Entry.declaration = .error err := by
    rw [render_eq]
    cases (es.filter Entry.isVisible).mapM Entry.declaration <;> simp [Except.map]
  rw [herror, mapM_eq_error_iff]
  constructor
  · intro ⟨before, e, after, hsplit, hbefore, he⟩
    obtain ⟨front, rest, rfl, rfl, hrest⟩ := List.filter_eq_append_iff.mp hsplit
    obtain ⟨hidden, back, rfl, hhidden, hvisible, -⟩ := List.filter_eq_cons_iff.mp hrest
    refine ⟨front ++ hidden, e, back, by rw [List.append_assoc], fun b hb hbvisible => ?_,
      hvisible, Entry.declaration_eq_error_iff.mp he⟩
    rcases List.mem_append.mp hb with hb | hb
    · exact Entry.exists_declaration_iff.mp (hbefore b (List.mem_filter.mpr ⟨hb, hbvisible⟩))
    · exact absurd hbvisible (hhidden b hb)
  · intro ⟨before, e, after, hsplit, hbefore, hvisible, hdefect⟩
    refine ⟨before.filter Entry.isVisible, e, after.filter Entry.isVisible, ?_, fun b hb => ?_,
      hdefect.declaration⟩
    · rw [hsplit, List.filter_append, List.filter_cons_of_pos hvisible]
    · obtain ⟨hb, hbvisible⟩ := List.mem_filter.mp hb
      exact Entry.exists_declaration_iff.mpr (hbefore b hb hbvisible)

theorem exists_render_iff :
    (∃ text, render es = .ok text) ↔ ∀ e ∈ es, e.isVisible → ¬ e.Defective := by
  constructor
  · intro ⟨text, htext⟩ e he hvisible
    obtain ⟨ds, hds, -⟩ := render_eq_ok_iff.mp htext
    rcases mapM_cases Entry.declaration (es.filter Entry.isVisible) with
      ⟨-, -, hall⟩ | ⟨before, x, after, err, -, -, -, herror⟩
    · exact Entry.exists_declaration_iff.mp (hall e (List.mem_filter.mpr ⟨he, hvisible⟩))
    · exact nomatch hds.symm.trans herror
  · intro h
    cases hrender : render es with
    | ok text => exact ⟨text, rfl⟩
    | error err =>
        obtain ⟨before, e, after, hsplit, -, hvisible, hdefect⟩ := render_eq_error_iff.mp hrender
        exact absurd ⟨err, hdefect⟩ (h e (by rw [hsplit]; simp) hvisible)

/-- **Rendering is a homomorphism, and the first failure wins.** A list in two parts is rendered part
by part; if a part fails, so does the whole, and the first one that does is reported. Hidden
entries, whatever they contain, can be put in and left out anywhere. What is reported is the defect
of the first visible entry that has one, and there is a text exactly if there is no such entry. Of
an entry, an unknown category is reported before a malformed tag, the first of these before later
ones, and any tag before parameters that do not suit the category; and only an array or a collection
function can have such parameters. -/
theorem render_verdict (xs ys : List Entry) :
    render (xs ++ ys) = (do
        let text ← render xs
        let rest ← render ys
        return text ++ rest)
      ∧ (xs.filter Entry.isVisible = ys.filter Entry.isVisible → render xs = render ys)
      ∧ (∀ err, render xs = .error err ↔ ∃ before e after, xs = before ++ e :: after
          ∧ (∀ b ∈ before, b.isVisible → ¬ b.Defective) ∧ e.isVisible ∧ e.Defect err)
      ∧ ((∃ text, render xs = .ok text) ↔ ∀ e ∈ xs, e.isVisible → ¬ e.Defective)
      ∧ ∀ (e : Entry) err, e.Defect err → e.category ≠ "Array" → e.category ≠ "Collection" →
          (∀ c : Category, c.name ≠ e.category) ∨ ∃ t ∈ e.params, t.Defect err := by
  refine ⟨render_append xs ys, fun h => ?_, fun err => render_eq_error_iff, exists_render_iff,
    fun e err => Entry.Defect.of_other_category⟩
  rw [render_eq, render_eq, h]

end CurriedTypings.Docs
