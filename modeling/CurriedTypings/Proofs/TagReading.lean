import CurriedTypings.Proofs.ParamTags

/-!
# What a tag is read as

A tag that is not malformed is read as one parameter. `reading` says which, in terms of what
stands in front of and behind single characters and without the patterns (`parse_eq_ok_iff`).

Two flags of the parameter repeat what reading takes off its texts: the dots in front of the
type text and the brackets around the name text. The patterns that set the flags are not those
that take dots and brackets off, and they stop at line breaks where the others go on. So the
flags can be wrong (`parse_misses_marks`), and `flags_verdict` says exactly when they are:

- dots are taken off a type text of several lines, and the parameter is not spread;
- a name of several lines stands between brackets, and the parameter is not optional;
- nothing that could be a name follows the opening bracket, and the bracket is the name.
-/

namespace CurriedTypings.Text

/-! ## Texts in front -/

def frontOf (text cs : List Char) : List Char := if text <+: cs then text else []

/-- What is left of a text once a fixed one has been taken off its front, if it is there. -/
def behind (text cs : List Char) : List Char := cs.drop (frontOf text cs).length

variable {text cs : List Char}

theorem frontOf_eq_self (h : text <+: cs) : frontOf text cs = text := if_pos h

theorem frontOf_eq_nil (h : ¬ text <+: cs) : frontOf text cs = [] := if_neg h

theorem behind_eq_self (h : ¬ text <+: cs) : behind text cs = cs := by
  rw [behind, frontOf_eq_nil h, List.length_nil, List.drop_zero]

theorem frontOf_append_behind (text cs : List Char) : frontOf text cs ++ behind text cs = cs := by
  have hprefix : frontOf text cs <+: cs := by
    unfold frontOf
    split
    case isTrue h => exact h
    case isFalse => exact List.nil_prefix
  exact List.prefix_iff_eq_append.mp hprefix

theorem length_frontOf_le (text cs : List Char) : (frontOf text cs).length ≤ text.length := by
  unfold frontOf
  split
  · exact Nat.le_refl _
  · exact Nat.zero_le _

theorem mem_dropLast_of_behind {c : Char} (h : c ∈ (behind text cs).dropLast) :
    c ∈ cs.dropLast := by
  have hne : behind text cs ≠ [] := by
    intro hnil
    rw [hnil] at h
    cases h
  rw [← frontOf_append_behind text cs, List.dropLast_append_of_ne_nil hne]
  exact List.mem_append_right _ h

theorem behind_append (text rest : List Char) : behind text (text ++ rest) = rest := by
  rw [behind, frontOf_eq_self (List.prefix_append _ _), List.drop_left]

theorem mem_of_mem_frontOf {c : Char} (h : c ∈ frontOf text cs) : c ∈ text := by
  unfold frontOf at h
  split at h
  · exact h
  · exact absurd h List.not_mem_nil

theorem not_of_dropWhile_eq_cons {p : Char → Bool} {c : Char} {rest : List Char}
    (h : cs.dropWhile p = c :: rest) : ¬ p c := by
  have hhead := List.head?_dropWhile_not p cs
  rw [h] at hhead
  exact Bool.not_eq_true _ ▸ hhead

theorem Piece.prefers_front (text cs : List Char) :
    (Piece.optional text).Prefers (frontOf text cs) (behind text cs) := by
  by_cases h : text <+: cs
  · exact .inl (frontOf_eq_self h)
  · exact .inr ⟨frontOf_eq_nil h, by rwa [behind_eq_self h]⟩

end CurriedTypings.Text

namespace CurriedTypings.Docs.ParamTag

open Text

/-! ## The parts of a type text -/

def undotted (type : List Char) : List Char := behind ['.', '.', '.'] type

def alternatives (type : List Char) : List Char :=
  (behind ['('] (undotted type)).takeWhile (· ≠ ')')

/-- The closing parenthesis behind the types, if there is one. -/
def closing (type : List Char) : List Char :=
  (behind ['('] (undotted type)).dropWhile (· ≠ ')')

theorem alternatives_append_closing (type : List Char) :
    alternatives type ++ closing type = behind ['('] (undotted type) :=
  List.takeWhile_append_dropWhile

variable {type name : String}

/-- Behind the first closing parenthesis nothing is left. -/
theorem closing_cases (h : ¬ HasInnerParenthesis type) :
    closing type.toList = [')'] ∨ closing type.toList = [] := by
  cases hclosing : closing type.toList with
  | nil => exact .inr rfl
  | cons c rest =>
      have hc : c = ')' := by simpa using not_of_dropWhile_eq_cons hclosing
      cases rest with
      | nil => exact .inl (by rw [hc])
      | cons d rest =>
          have hinner : ')' ∈ (alternatives type.toList ++ ')' :: d :: rest).dropLast := by simp
          rw [← hc, ← hclosing, alternatives_append_closing, hc] at hinner
          exact absurd (mem_dropLast_of_behind (mem_dropLast_of_behind hinner)) h

theorem parts?_typePattern (h : ¬ HasInnerParenthesis type) :
    typePattern.parts? type.toList = some [frontOf ['.', '.', '.'] type.toList,
      frontOf ['('] (undotted type.toList), alternatives type.toList, closing type.toList] := by
  have htypes : [alternatives type.toList, closing type.toList].flatten
      = behind ['('] (undotted type.toList) := by
    rw [← alternatives_append_closing]
    simp
  have hopened : [frontOf ['('] (undotted type.toList), alternatives type.toList,
      closing type.toList].flatten = undotted type.toList := by
    rw [List.flatten_cons, htypes, frontOf_append_behind]
  have hall : [frontOf ['.', '.', '.'] type.toList, frontOf ['('] (undotted type.toList),
      alternatives type.toList, closing type.toList].flatten = type.toList := by
    rw [List.flatten_cons, hopened, undotted, frontOf_append_behind]
  have hpreferred : typePattern.Preferred [frontOf ['.', '.', '.'] type.toList,
      frontOf ['('] (undotted type.toList), alternatives type.toList, closing type.toList] := by
    refine ⟨?_, ?_, ⟨⟨?_, nofun⟩, ?_⟩, ?_, trivial⟩
    · rw [hopened]
      exact Piece.prefers_front _ _
    · rw [htypes]
      exact Piece.prefers_front _ _
    · intro c hc hmem
      have hclean := List.all_eq_true.mp List.all_takeWhile c hc
      simp [List.mem_singleton.mp hmem] at hclean
    · rcases closing_cases h with hclosing | hclosing <;> simp [hclosing]
    · rcases closing_cases h with hclosing | hclosing
      · exact .inl hclosing
      · exact .inr ⟨hclosing, by simp⟩
  have hparts := Pattern.parts?_of_preferred hpreferred
  rwa [hall] at hparts

/-! ## The parts of a name text -/

def nameFront (cs : List Char) : List Char := cs.takeWhile fun c => !endsName c

/-- The name in a name text. It starts behind an opening bracket; but if no name follows it, the
bracket is the name. -/
def bareName (name : List Char) : List Char :=
  if nameFront (behind ['['] name) = [] then nameFront name else nameFront (behind ['['] name)

theorem not_endsName_of_mem_nameFront {cs : List Char} {c : Char} (h : c ∈ nameFront cs) :
    ¬ endsName c := by
  simpa using List.all_eq_true.mp List.all_takeWhile c h

theorem not_endsName_of_mem_bracket {cs : List Char} {c : Char} (h : c ∈ frontOf ['['] cs) :
    ¬ endsName c := by
  rw [List.mem_singleton.mp (mem_of_mem_frontOf h)]
  decide

theorem dropWhile_behind_bracket (cs : List Char) :
    (behind ['['] cs).dropWhile (fun c => !endsName c) = cs.dropWhile fun c => !endsName c := by
  conv_rhs => rw [← frontOf_append_behind ['['] cs]
  rw [List.dropWhile_append_of_pos fun c hc => by simpa using not_endsName_of_mem_bracket hc]

theorem nameFront_append {cs : List Char} (h : ∀ c ∈ cs, ¬ endsName c) (rest : List Char) :
    nameFront (cs ++ rest) = cs ++ nameFront rest :=
  List.takeWhile_append_of_pos fun c hc => by simpa using h c hc

theorem nameFront_eq (cs : List Char) :
    nameFront cs = frontOf ['['] cs ++ nameFront (behind ['['] cs) := by
  conv_lhs => rw [← frontOf_append_behind ['['] cs]
  exact nameFront_append (fun c => not_endsName_of_mem_bracket) _

/-- The part of a name text that is captured is the bare name. -/
theorem parts?_namePattern (h : ¬ LacksName name) : ∃ bracket tail last,
    namePattern.parts? name.toList = some [bracket, bareName name.toList, tail, last] := by
  by_cases hinner : nameFront (behind ['['] name.toList) = []
  · -- The bracket cannot be taken off, so the one way left is to take it for the name.
    obtain ⟨parts, hparts⟩ := Option.isSome_iff_exists.mp (namePattern_fits_iff.mpr h)
    obtain ⟨bracket, found, tail, last, rfl, hends, hne, -, hall⟩ :=
      divides_namePattern (Pattern.divides_of_parts? hparts)
    have hfront : bracket ++ found ++ nameFront (tail ++ last) = nameFront name.toList := by
      rw [← hall, nameFront_append hends]
    have hlength : (nameFront name.toList).length ≤ 1 := by
      rw [nameFront_eq, hinner, List.append_nil]
      exact length_frontOf_le ['['] name.toList
    rw [← hfront, List.length_append, List.length_append] at hlength
    have hpos := List.length_pos_of_ne_nil hne
    obtain rfl : bracket = [] := List.length_eq_zero_iff.mp (by omega)
    have hrest : nameFront (tail ++ last) = [] := List.length_eq_zero_iff.mp (by omega)
    rw [hrest, List.nil_append, List.append_nil] at hfront
    exact ⟨[], tail, last, by rw [hparts, bareName, if_pos hinner, hfront]⟩
  · have htail : '\n' ∉ (behind ['['] name.toList).dropWhile fun c => !endsName c := by
      rw [dropWhile_behind_bracket]
      exact fun hbreak => h (.inr (.inr hbreak))
    have hinside : [nameFront (behind ['['] name.toList),
        (behind ['['] name.toList).dropWhile fun c => !endsName c, []].flatten
          = behind ['['] name.toList := by
      simp [nameFront]
    have hall : [frontOf ['['] name.toList, nameFront (behind ['['] name.toList),
        (behind ['['] name.toList).dropWhile fun c => !endsName c, []].flatten = name.toList := by
      rw [List.flatten_cons, hinside, frontOf_append_behind]
    have hpreferred : namePattern.Preferred [frontOf ['['] name.toList,
        nameFront (behind ['['] name.toList),
        (behind ['['] name.toList).dropWhile fun c => !endsName c, []] := by
      refine ⟨?_, ⟨⟨?_, fun _ => hinner⟩, ?_⟩, ⟨htail, by simp⟩, .inr ⟨rfl, by simp⟩, trivial⟩
      · rw [hinside]
        exact Piece.prefers_front _ _
      · intro c hc
        rw [← endsName_iff]
        exact not_endsName_of_mem_nameFront hc
      · intro c hc
        rw [List.flatten_cons, List.flatten_singleton, List.append_nil] at hc
        obtain ⟨rest, hrest⟩ := List.head?_eq_some_iff.mp hc
        rw [← endsName_iff]
        simpa using not_of_dropWhile_eq_cons hrest
    have hparts := Pattern.parts?_of_preferred hpreferred
    rw [hall] at hparts
    exact ⟨_, _, _, by rw [hparts, bareName, if_neg hinner]⟩

/-! ## Reading without patterns -/

abbrev HasDots (type : String) : Prop := ['.', '.', '.'] <+: type.toList

abbrev IsBracketed (name : String) : Prop := ['['] <+: name.toList ∧ [']'] <:+ name.toList

theorem spreadPattern_fits_toList_iff :
    spreadPattern.fits type.toList ↔ HasDots type ∧ '\n' ∉ type.toList := by
  rw [spreadPattern_fits_iff]
  constructor
  · rintro ⟨rest, hrest, hbreak⟩
    refine ⟨⟨rest, hrest⟩, ?_⟩
    rw [← hrest]
    simpa using hbreak
  · rintro ⟨⟨rest, hrest⟩, hbreak⟩
    refine ⟨rest, hrest, fun hmem => hbreak ?_⟩
    rw [← hrest]
    exact List.mem_append_right _ hmem

theorem isBracketed_iff : IsBracketed name ↔ ∃ inner, '[' :: inner ++ [']'] = name.toList := by
  constructor
  · rintro ⟨⟨rest, hrest⟩, hlast⟩
    rw [← hrest, List.singleton_append, List.suffix_cons_iff] at hlast
    rcases hlast with hsame | ⟨inner, rfl⟩
    · exact absurd (List.cons.inj hsame).1 (by decide)
    · exact ⟨inner, hrest⟩
  · rintro ⟨inner, hinner⟩
    rw [IsBracketed, ← hinner]
    exact ⟨⟨inner ++ [']'], rfl⟩, List.suffix_append _ _⟩

theorem optionalPattern_fits_toList_iff :
    optionalPattern.fits name.toList ↔ IsBracketed name ∧ '\n' ∉ name.toList := by
  rw [optionalPattern_fits_iff, isBracketed_iff]
  constructor
  · rintro ⟨line, hline, hbreak⟩
    refine ⟨⟨line, hline⟩, ?_⟩
    rw [← hline]
    simpa using hbreak
  · rintro ⟨⟨line, hline⟩, hbreak⟩
    refine ⟨line, hline, fun hmem => hbreak ?_⟩
    rw [← hline]
    simp [hmem]

/-- What a tag is read as, provided that it is not malformed. -/
def reading (t : ParamTag) : Param where
  types := ((alternatives t.type.toList).splitOn '|').map String.ofList
  name := String.ofList (bareName t.name.toList)
  optional := decide (IsBracketed t.name ∧ '\n' ∉ t.name.toList)
  spread := decide (HasDots t.type ∧ '\n' ∉ t.type.toList)

variable {t : ParamTag} {p : Param}

theorem parse_eq_ok_iff :
    t.parse = .ok p ↔ ¬ HasInnerParenthesis t.type ∧ ¬ LacksName t.name ∧ p = t.reading := by
  by_cases htype : HasInnerParenthesis t.type
  · simp [parse_of_hasInnerParenthesis htype, htype]
  · by_cases hname : LacksName t.name
    · simp [parse_of_lacksName htype hname, hname]
    · obtain ⟨bracket, tail, last, hparts⟩ := parts?_namePattern hname
      have hoptional : optionalPattern.fits t.name.toList
          = decide (IsBracketed t.name ∧ '\n' ∉ t.name.toList) := by
        rw [Bool.eq_iff_iff, optionalPattern_fits_toList_iff, decide_eq_true_iff]
      have hspread : spreadPattern.fits t.type.toList
          = decide (HasDots t.type ∧ '\n' ∉ t.type.toList) := by
        rw [Bool.eq_iff_iff, spreadPattern_fits_toList_iff, decide_eq_true_iff]
      rw [parse_of_parts? (parts?_typePattern htype) hparts, hoptional, hspread]
      simp only [htype, hname, not_false_eq_true, true_and, Except.ok.injEq, reading]
      exact eq_comm

/-! ## Flags and marks -/

/-- The flags of a parameter say what has been taken off the texts of its tag: dots off the type
text, and brackets off the name text, around a name. -/
structure FlagsAgree (t : ParamTag) (p : Param) : Prop where
  spread : p.spread = true ↔ HasDots t.type
  optional : p.optional = true ↔ IsBracketed t.name
  name : IsBracketed t.name → ∃ inner, t.name.toList = '[' :: inner
    ∧ p.name.toList = nameFront inner ∧ nameFront inner ≠ []

def NamelessBracket (name : String) : Prop :=
  ∃ c rest, name.toList = '[' :: c :: rest ∧ endsName c

theorem nameFront_cons_eq_nil_iff {c : Char} {rest : List Char} :
    nameFront (c :: rest) = [] ↔ endsName c := by
  unfold nameFront
  cases h : endsName c <;> simp [h]

/-- Brackets around a name are taken off. -/
theorem bareName_of_bracketed (hbracket : IsBracketed name) (hname : ¬ NamelessBracket name) :
    ∃ inner, name.toList = '[' :: inner ∧ bareName name.toList = nameFront inner
      ∧ nameFront inner ≠ [] := by
  obtain ⟨rest, hrest⟩ := hbracket.1
  obtain ⟨line, hline⟩ := isBracketed_iff.mp hbracket
  have hne : nameFront rest ≠ [] := by
    intro hnil
    cases rest with
    | nil => simp [← hrest] at hline
    | cons c rest => exact hname ⟨c, rest, hrest.symm, nameFront_cons_eq_nil_iff.mp hnil⟩
  refine ⟨rest, hrest.symm, ?_, hne⟩
  rw [← hrest, bareName, behind_append, if_neg hne]

/-- **What a tag is read as, and when its flags are right.** Dots are taken off exactly if the type
text starts with them, and the types are what stands behind them, in parentheses or not. But the
parameter is spread only if the type text is a single line as well, and it is optional only if the
text between brackets is. The flags say what has been taken off exactly if a type text with dots and a
name text between brackets are single lines, and a name follows the opening bracket. -/
theorem flags_verdict (h : t.parse = .ok p) :
    ((typePattern.parts? t.type.toList).bind (·[0]?)
        = some (if HasDots t.type then ['.', '.', '.'] else []))
      ∧ p.types = ((alternatives t.type.toList).splitOn '|').map String.ofList
      ∧ p.name = String.ofList (bareName t.name.toList)
      ∧ (p.spread = true ↔ HasDots t.type ∧ '\n' ∉ t.type.toList)
      ∧ (p.optional = true ↔ IsBracketed t.name ∧ '\n' ∉ t.name.toList)
      ∧ (FlagsAgree t p ↔ (HasDots t.type → '\n' ∉ t.type.toList)
          ∧ (IsBracketed t.name → '\n' ∉ t.name.toList ∧ ¬ NamelessBracket t.name)) := by
  obtain ⟨htype, -, rfl⟩ := parse_eq_ok_iff.mp h
  have hdots : (typePattern.parts? t.type.toList).bind (·[0]?)
      = some (if HasDots t.type then ['.', '.', '.'] else []) := by
    rw [parts?_typePattern htype]
    rfl
  have hspread : t.reading.spread = true ↔ HasDots t.type ∧ '\n' ∉ t.type.toList := by
    rw [reading, decide_eq_true_iff]
  have hoptional : t.reading.optional = true ↔ IsBracketed t.name ∧ '\n' ∉ t.name.toList := by
    rw [reading, decide_eq_true_iff]
  refine ⟨hdots, by rw [reading], by rw [reading], hspread, hoptional, ?_, ?_⟩
  · intro agree
    refine ⟨fun hdots => (hspread.mp (agree.spread.mpr hdots)).2, fun hbracket => ?_⟩
    refine ⟨(hoptional.mp (agree.optional.mpr hbracket)).2, ?_⟩
    intro ⟨c, rest, hrest, hc⟩
    obtain ⟨inner, hinner, -, hne⟩ := agree.name hbracket
    obtain rfl := (List.cons.inj (hinner.symm.trans hrest)).2
    exact hne (nameFront_cons_eq_nil_iff.mpr hc)
  · intro ⟨hline, hbracket⟩
    refine ⟨?_, ?_, fun hb => ?_⟩
    · exact hspread.trans (and_iff_left_of_imp hline)
    · exact hoptional.trans (and_iff_left_of_imp fun hb => (hbracket hb).1)
    · obtain ⟨inner, hinner, hbare, hne⟩ := bareName_of_bracketed hb (hbracket hb).2
      exact ⟨inner, hinner, by rw [reading, String.toList_ofList, hbare], hne⟩

/-- An optional parameter with a default, and any number of arguments. -/
theorem flags_verdict_values :
    (⟨"...(Array|Object)", "[values=[]]", ""⟩ : ParamTag).parse
        = .ok ⟨["Array", "Object"], "values", true, true⟩
      ∧ FlagsAgree ⟨"...(Array|Object)", "[values=[]]", ""⟩
        ⟨["Array", "Object"], "values", true, true⟩ := by
  have hparse : (⟨"...(Array|Object)", "[values=[]]", ""⟩ : ParamTag).parse
      = .ok ⟨["Array", "Object"], "values", true, true⟩ := by decide +kernel
  obtain ⟨-, -, -, -, -, hagree⟩ := flags_verdict hparse
  refine ⟨hparse, hagree.mpr ⟨fun _ => ?_, fun _ => ⟨?_, ?_⟩⟩⟩
  · simp
  · simp
  · intro ⟨c, rest, hrest, hc⟩
    simp only [String.toList] at hrest
    cases hrest
    exact absurd hc (by decide)

/-- Three tags with flags that are wrong: dots in front of two lines, brackets around two lines,
and brackets around nothing. -/
theorem parse_misses_marks :
    (⟨"...A\nB", "x", ""⟩ : ParamTag).parse = .ok ⟨["A\nB"], "x", false, false⟩
      ∧ HasDots "...A\nB" ∧ ¬ FlagsAgree ⟨"...A\nB", "x", ""⟩ ⟨["A\nB"], "x", false, false⟩
      ∧ (⟨"A", "[x\ny]", ""⟩ : ParamTag).parse = .ok ⟨["A"], "x\ny", false, false⟩
      ∧ IsBracketed "[x\ny]" ∧ ¬ FlagsAgree ⟨"A", "[x\ny]", ""⟩ ⟨["A"], "x\ny", false, false⟩
      ∧ (⟨"A", "[]", ""⟩ : ParamTag).parse = .ok ⟨["A"], "[", true, false⟩
      ∧ IsBracketed "[]" ∧ ¬ FlagsAgree ⟨"A", "[]", ""⟩ ⟨["A"], "[", true, false⟩ := by
  have hdots : HasDots "...A\nB" := by decide +kernel
  have hlines : IsBracketed "[x\ny]" := by decide +kernel
  have hnothing : IsBracketed "[]" := by decide +kernel
  refine ⟨by decide +kernel, hdots, ?_, by decide +kernel, hlines, ?_, by decide +kernel, hnothing, ?_⟩
  · intro agree
    exact nomatch agree.spread.mpr hdots
  · intro agree
    exact nomatch agree.optional.mpr hlines
  · intro agree
    obtain ⟨inner, hinner, -, hne⟩ := agree.name hnothing
    cases hinner
    exact hne rfl

end CurriedTypings.Docs.ParamTag
