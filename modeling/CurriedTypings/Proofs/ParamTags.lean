import CurriedTypings.Docs
import CurriedTypings.Proofs.Patterns

/-!
# Reading parameter tags

Reading is lenient, but there is a limit. Which tags are malformed is said in terms of single
characters, without the patterns that find it out (`parse_verdict`): a closing parenthesis
inside the type text, a name text that does not start with a name, a line break behind the name.

A tag that somebody wrote for a parameter is read as this parameter (`parse_tag`). There is some
freedom in writing it: the types may stand in parentheses, and a parameter that may be left out
may have a default. Reading finds the way back through all of them, whatever the types, the name
and the default consist of, as long as they contain nothing that ends them.
-/

namespace CurriedTypings.Docs

open Text

/-! ## Splitting and joining -/

theorem forall_mem_splitOn {a : Char} {cs : List Char} :
    ∀ part ∈ cs.splitOn a, a ∉ part ∧ ∀ c ∈ part, c ∈ cs := by
  induction cs with
  | nil => simp
  | cons x cs ih =>
      rw [List.splitOn_cons_eq_if_modifyHead]
      by_cases hx : x = a
      · rw [if_pos (beq_iff_eq.mpr hx)]
        intro part hpart
        rcases List.mem_cons.mp hpart with rfl | hpart
        · exact ⟨List.not_mem_nil, fun c hc => absurd hc List.not_mem_nil⟩
        · obtain ⟨hsep, hsub⟩ := ih part hpart
          exact ⟨hsep, fun c hc => List.mem_cons_of_mem x (hsub c hc)⟩
      · rw [if_neg (mt beq_iff_eq.mp hx)]
        obtain ⟨first, others, hsplit⟩ := List.exists_cons_of_ne_nil (List.splitOn_ne_nil a cs)
        rw [hsplit] at ih ⊢
        intro part hpart
        rcases List.mem_cons.mp hpart with rfl | hpart
        · obtain ⟨hsep, hsub⟩ := ih first List.mem_cons_self
          refine ⟨?_, List.forall_mem_cons.mpr ⟨List.mem_cons_self, ?_⟩⟩
          · exact List.not_mem_cons_of_ne_of_not_mem (Ne.symm hx) hsep
          · exact fun c hc => List.mem_cons_of_mem x (hsub c hc)
        · obtain ⟨hsep, hsub⟩ := ih part (List.mem_cons_of_mem first hpart)
          exact ⟨hsep, fun c hc => List.mem_cons_of_mem x (hsub c hc)⟩

theorem mem_intercalate {c : Char} {sep : List Char} {parts : List (List Char)}
    (h : c ∈ sep.intercalate parts) : c ∈ sep ∨ ∃ part ∈ parts, c ∈ part := by
  induction parts with
  | nil => simp at h
  | cons part parts ih =>
      cases parts with
      | nil =>
          rw [List.intercalate_singleton] at h
          exact .inr ⟨part, List.mem_cons_self, h⟩
      | cons next parts =>
          rw [List.intercalate_cons_cons, List.mem_append, List.mem_append] at h
          rcases h with (h | h) | h
          · exact .inr ⟨part, List.mem_cons_self, h⟩
          · exact .inl h
          · rcases ih h with hsep | ⟨other, hother, hc⟩
            · exact .inl hsep
            · exact .inr ⟨other, List.mem_cons_of_mem _ hother, hc⟩

theorem mem_intercalate_of_mem {c : Char} {sep part : List Char} {parts : List (List Char)}
    (hpart : part ∈ parts) (hc : c ∈ part) : c ∈ sep.intercalate parts := by
  induction parts with
  | nil => cases hpart
  | cons first parts ih =>
      cases parts with
      | nil =>
          rw [List.intercalate_singleton]
          exact List.mem_singleton.mp hpart ▸ hc
      | cons next parts =>
          rw [List.intercalate_cons_cons]
          rcases List.mem_cons.mp hpart with rfl | hpart
          · exact List.mem_append_left _ (List.mem_append_left _ hc)
          · exact List.mem_append_right _ (ih hpart)

namespace ParamTag

/-! ## What a reading consists of -/

theorem capture_of_parts? {pattern : Pattern} {text : String} {index : Nat}
    {parts : List (List Char)} {part : List Char} (hparts : pattern.parts? text.toList = some parts)
    (hpart : parts[index]? = some part) :
    capture pattern text index = .ok (String.ofList part) := by
  rw [capture, hparts, Option.bind_some, hpart]

theorem capture_of_not_fits {pattern : Pattern} {text : String} (h : ¬ pattern.fits text.toList)
    (index : Nat) : capture pattern text index = .error (.patternMismatch text pattern.written) := by
  rw [Pattern.fits, Bool.not_eq_true, Option.isSome_eq_false_iff, Option.isNone_iff_eq_none] at h
  rw [capture, h, Option.bind_none]

theorem parse_of_parts? {t : ParamTag} {dots opening types closing bracket name tail last : List Char}
    (htype : typePattern.parts? t.type.toList = some [dots, opening, types, closing])
    (hname : namePattern.parts? t.name.toList = some [bracket, name, tail, last]) :
    t.parse = .ok
      { types := (types.splitOn '|').map String.ofList
        name := String.ofList name
        optional := optionalPattern.fits t.name.toList
        spread := spreadPattern.fits t.type.toList } := by
  rw [parse, capture_of_parts? htype rfl, capture_of_parts? hname rfl]
  simp only [bind, Except.bind, pure, Except.pure, String.toList_ofList]

theorem divides_typePattern {parts : List (List Char)} {cs : List Char}
    (h : typePattern.Divides parts cs) :
    ∃ dots opening types closing, parts = [dots, opening, types, closing]
      ∧ ')' ∉ dots ++ opening ++ types ∧ (closing = [')'] ∨ closing = [])
      ∧ dots ++ opening ++ types ++ closing = cs := by
  obtain ⟨_ | ⟨hdots, _ | ⟨hopening, _ | ⟨⟨htypes, -⟩, _ | ⟨hclosing, ⟨⟩⟩⟩⟩⟩, rfl⟩ := h
  refine ⟨_, _, _, _, rfl, ?_, hclosing, by simp⟩
  have htypes : ')' ∉ _ := fun hmem => htypes _ hmem List.mem_cons_self
  rcases hdots with rfl | rfl <;> rcases hopening with rfl | rfl <;> simpa using htypes

/-- What a name cannot contain: it is where the default starts, or where the brackets end. -/
def endsName (c : Char) : Bool := c = '=' || c = ']'

theorem endsName_iff {c : Char} : endsName c ↔ c ∈ ['=', ']'] := by simp [endsName]

/-- In a division of a name text, the name starts it, or stands behind a bracket, and there is no
line break behind the name. -/
theorem divides_namePattern {parts : List (List Char)} {cs : List Char}
    (h : namePattern.Divides parts cs) :
    ∃ bracket name tail last, parts = [bracket, name, tail, last]
      ∧ (∀ c ∈ bracket ++ name, ¬ endsName c) ∧ name ≠ [] ∧ '\n' ∉ tail ++ last
      ∧ bracket ++ name ++ (tail ++ last) = cs := by
  obtain ⟨_ | ⟨hbracket, _ | ⟨⟨hname, hne⟩, _ | ⟨htail, _ | ⟨hlast, ⟨⟩⟩⟩⟩⟩, rfl⟩ := h
  refine ⟨_, _, _, _, rfl, fun c hc => ?_, hne rfl, ?_, by simp⟩
  · rcases List.mem_append.mp hc with hc | hc
    · rcases hbracket with rfl | rfl
      · rw [List.mem_singleton.mp hc]
        decide
      · exact absurd hc List.not_mem_nil
    · exact mt endsName_iff.mp (hname c hc)
  · have htail : '\n' ∉ _ := htail
    rcases hlast with rfl | rfl <;> simpa using htail

theorem optionalPattern_fits_iff {cs : List Char} :
    optionalPattern.fits cs ↔ ∃ line, '[' :: line ++ [']'] = cs ∧ '\n' ∉ line := by
  rw [Pattern.fits_iff]
  constructor
  · rintro ⟨_, ⟨_ | ⟨rfl, _ | ⟨hline, _ | ⟨rfl, ⟨⟩⟩⟩⟩, rfl⟩⟩
    exact ⟨_, by simp, hline⟩
  · rintro ⟨line, rfl, hline⟩
    exact ⟨[['['], line, [']']], .cons rfl (.cons hline (.cons rfl .nil)), by simp⟩

theorem spreadPattern_fits_iff {cs : List Char} :
    spreadPattern.fits cs ↔ ∃ rest, ['.', '.', '.'] ++ rest = cs ∧ '\n' ∉ rest := by
  rw [Pattern.fits_iff]
  constructor
  · rintro ⟨_, ⟨_ | ⟨rfl, _ | ⟨hline, ⟨⟩⟩⟩, rfl⟩⟩
    exact ⟨_, by simp, hline⟩
  · rintro ⟨rest, rfl, hrest⟩
    exact ⟨[['.', '.', '.'], rest], .cons rfl (.cons hrest .nil), by simp⟩

/-! ## Malformed tags -/

/-- A closing parenthesis stands in a type text, other than at its end. -/
def HasInnerParenthesis (type : String) : Prop := ')' ∈ type.toList.dropLast

/-- A name text is empty, does not start with a name, or goes on for more than a line behind it. -/
def LacksName (name : String) : Prop :=
  name = "" ∨ (∃ c ∈ name.toList.head?, endsName c)
    ∨ '\n' ∈ name.toList.dropWhile fun c => !endsName c

/-- A type text fits however its dots and parentheses are made use of: none of them is a closing
parenthesis, but for the last one. -/
theorem typePattern_fits_iff {type : String} :
    typePattern.fits type.toList ↔ ¬ HasInnerParenthesis type := by
  rw [Pattern.fits_iff, HasInnerParenthesis]
  generalize type.toList = cs
  constructor
  · rintro ⟨parts, h⟩
    obtain ⟨dots, opening, types, closing, -, hfront, hclosing, rfl⟩ := divides_typePattern h
    rcases hclosing with rfl | rfl
    · rwa [List.dropLast_concat]
    · rw [List.append_nil]
      exact mt (fun hmem => (List.dropLast_sublist _).subset hmem) hfront
  · intro hinner
    have hfits : ∀ types closing : List Char, ')' ∉ types → (closing = [')'] ∨ closing = []) →
        typePattern.Divides [[], [], types, closing] (types ++ closing) := by
      intro types closing htypes hclosing
      refine ⟨.cons (.inr rfl) (.cons (.inr rfl) (.cons ⟨fun c hc hmem => ?_, nofun⟩
        (.cons hclosing .nil))), by simp⟩
      exact htypes (List.mem_singleton.mp hmem ▸ hc)
    by_cases hmem : ')' ∈ cs
    · have hne : cs ≠ [] := List.ne_nil_of_mem hmem
      have hlast : cs.getLast hne = ')' := by
        rw [← List.dropLast_append_getLast hne, List.mem_append] at hmem
        exact (List.mem_singleton.mp (hmem.resolve_left hinner)).symm
      have hcs : cs.dropLast ++ [')'] = cs := hlast ▸ List.dropLast_append_getLast hne
      exact ⟨_, hcs ▸ hfits cs.dropLast [')'] hinner (.inl rfl)⟩
    · exact ⟨_, List.append_nil cs ▸ hfits cs [] hmem (.inr rfl)⟩

/-- A name text fits if it starts with a name, even if that is only the bracket in front, and has
no line break behind it. -/
theorem namePattern_fits_iff {name : String} :
    namePattern.fits name.toList ↔ ¬ LacksName name := by
  rw [Pattern.fits_iff, LacksName, ← String.toList_eq_nil_iff]
  generalize name.toList = cs
  constructor
  · rintro ⟨parts, h⟩
    obtain ⟨bracket, name, tail, last, -, hfront, hname, htail, rfl⟩ := divides_namePattern h
    have hne : bracket ++ name ≠ [] := List.append_ne_nil_of_right_ne_nil _ hname
    rintro (hnil | ⟨c, hc, hends⟩ | hbreak)
    · exact hne (List.append_eq_nil_iff.mp hnil).1
    · rw [List.head?_append_of_ne_nil _ hne] at hc
      exact hfront c (List.mem_of_mem_head? hc) hends
    · rw [List.dropWhile_append_of_pos fun c hc => by simpa using hfront c hc] at hbreak
      exact htail ((List.dropWhile_suffix _).subset hbreak)
  · intro h
    obtain ⟨hne, hhead, hbreak⟩ := (not_or.mp h).imp_right not_or.mp
    obtain ⟨c, cs, rfl⟩ := List.exists_cons_of_ne_nil hne
    have hc : ¬ endsName c := fun hends => hhead ⟨c, rfl, hends⟩
    let name := (c :: cs).takeWhile fun c => !endsName c
    have hname : ∀ d ∈ name, d ∉ ['=', ']'] := by
      intro d hd
      rw [← endsName_iff]
      simpa using List.all_eq_true.mp List.all_takeWhile d hd
    have hne : name ≠ [] := by simp [name, hc]
    exact ⟨[[], name, _, []], .cons (.inr rfl) (.cons ⟨hname, fun _ => hne⟩ (.cons hbreak
      (.cons (.inr rfl) .nil))), by simp [name]⟩

theorem parse_of_hasInnerParenthesis {t : ParamTag} (h : HasInnerParenthesis t.type) :
    t.parse = .error (.patternMismatch t.type typePattern.written) := by
  have hfits : ¬ typePattern.fits t.type.toList := fun hfits => typePattern_fits_iff.mp hfits h
  rw [parse, capture_of_not_fits hfits]
  rfl

theorem parse_of_lacksName {t : ParamTag} (htype : ¬ HasInnerParenthesis t.type)
    (hname : LacksName t.name) :
    t.parse = .error (.patternMismatch t.name namePattern.written) := by
  have hfits : ¬ namePattern.fits t.name.toList := fun hfits => namePattern_fits_iff.mp hfits hname
  obtain ⟨parts, hparts⟩ := Option.isSome_iff_exists.mp (typePattern_fits_iff.mpr htype)
  obtain ⟨dots, opening, types, closing, rfl, -⟩ :=
    divides_typePattern (Pattern.divides_of_parts? hparts)
  rw [parse, capture_of_parts? hparts rfl, capture_of_not_fits hfits]
  rfl

/-- What is true of every parameter that is read. -/
structure IsProper (p : Param) : Prop where
  types_ne_nil : p.types ≠ []
  types_clean : ∀ type ∈ p.types, '|' ∉ type.toList ∧ ')' ∉ type.toList
  name_ne_empty : p.name ≠ ""
  name_clean : ∀ c ∈ p.name.toList, ¬ endsName c

theorem exists_parse {t : ParamTag} (htype : ¬ HasInnerParenthesis t.type)
    (hname : ¬ LacksName t.name) : ∃ p, t.parse = .ok p ∧ IsProper p := by
  obtain ⟨typeParts, htypeParts⟩ := Option.isSome_iff_exists.mp (typePattern_fits_iff.mpr htype)
  obtain ⟨nameParts, hnameParts⟩ := Option.isSome_iff_exists.mp (namePattern_fits_iff.mpr hname)
  obtain ⟨dots, opening, types, closing, rfl, hfront, -, -⟩ :=
    divides_typePattern (Pattern.divides_of_parts? htypeParts)
  obtain ⟨bracket, name, tail, last, rfl, hends, hne, -, -⟩ :=
    divides_namePattern (Pattern.divides_of_parts? hnameParts)
  refine ⟨_, parse_of_parts? htypeParts hnameParts, ?_, ?_, ?_, ?_⟩
  · exact mt List.map_eq_nil_iff.mp (List.splitOn_ne_nil _ _)
  · intro type hmem
    obtain ⟨part, hpart, rfl⟩ := List.mem_map.mp hmem
    obtain ⟨hbar, hsub⟩ := forall_mem_splitOn part hpart
    rw [String.toList_ofList]
    exact ⟨hbar, fun hmem => hfront (List.mem_append_right _ (hsub _ hmem))⟩
  · exact mt String.ofList_eq_empty_iff.mp hne
  · intro c hc
    rw [String.toList_ofList] at hc
    exact hends c (List.mem_append_right _ hc)

/-- **Which tags are malformed, and what the others give.** The type text is at fault if a closing
parenthesis stands inside it. If none does, the name text is at fault if it lacks a name. Every
other tag is read; it has types, between the bars, and a name, up to what ends it. The description
does not matter. -/
theorem parse_verdict (t : ParamTag) :
    (t.parse = .error (.patternMismatch t.type typePattern.written) ↔ HasInnerParenthesis t.type)
      ∧ (t.parse = .error (.patternMismatch t.name namePattern.written) ↔
        ¬ HasInnerParenthesis t.type ∧ LacksName t.name)
      ∧ ((∃ p, t.parse = .ok p ∧ IsProper p) ↔ ¬ HasInnerParenthesis t.type ∧ ¬ LacksName t.name)
      ∧ ∀ description, ({ t with description } : ParamTag).parse = t.parse := by
  have hwritten : typePattern.written ≠ namePattern.written := by decide
  by_cases htype : HasInnerParenthesis t.type
  · have hparse := parse_of_hasInnerParenthesis htype
    refine ⟨?_, ?_, ?_, fun _ => rfl⟩ <;> simp [hparse, htype, hwritten]
  · by_cases hname : LacksName t.name
    · have hparse := parse_of_lacksName htype hname
      refine ⟨?_, ?_, ?_, fun _ => rfl⟩ <;> simp [hparse, htype, hname, hwritten.symm]
    · obtain ⟨p, hparse, hproper⟩ := exists_parse htype hname
      refine ⟨?_, ?_, ?_, fun _ => rfl⟩ <;> simp [hparse, htype, hname, hproper]

/-- The patterns as a message about a malformed tag shows them. -/
example : typePattern.written = "^(\\.\\.\\.)?\\(?([^)]*)\\)?$"
    ∧ namePattern.written = "^\\[?([^=\\]]+).*\\]?$" := by decide

/-! ## Well-formed tags -/

inductive Omission where
  | never
  | allowed
  | withDefault (text : String)
  deriving DecidableEq, Repr

/-- A parameter together with the way in which it is written. -/
structure Wording where
  types : List String
  name : String
  omission : Omission
  spread : Bool
  parenthesised : Bool
  deriving DecidableEq, Repr

namespace Wording

def joined (w : Wording) : String := "|".intercalate w.types

def typeText (w : Wording) : String :=
  (if w.spread then "..." else "")
    ++ (if w.parenthesised then "(" ++ w.joined ++ ")" else w.joined)

def nameText (w : Wording) : String :=
  match w.omission with
  | .never => w.name
  | .allowed => "[" ++ w.name ++ "]"
  | .withDefault text => "[" ++ w.name ++ "=" ++ text ++ "]"

def tag (w : Wording) (description : String) : ParamTag := ⟨w.typeText, w.nameText, description⟩

def param (w : Wording) : Param := ⟨w.types, w.name, w.omission ≠ .never, w.spread⟩

/-- Nothing in a wording is mistaken for what stands around it. -/
structure WellFormed (w : Wording) : Prop where
  types_ne_nil : w.types ≠ []
  types_clean : ∀ type ∈ w.types, ∀ c ∈ type.toList, c ∉ ['|', ')', '\n']
  /-- Without parentheses, the first type does not look as if there were any, or dots. -/
  bare_start : w.parenthesised = false →
    ¬ ['('] <+: w.joined.toList ∧ ¬ ['.', '.', '.'] <+: w.joined.toList
  name_ne_empty : w.name ≠ ""
  name_clean : ∀ c ∈ w.name.toList, c ∉ ['=', ']', '\n']
  name_start : ¬ ['['] <+: w.name.toList
  default_clean : ∀ text, w.omission = .withDefault text → '\n' ∉ text.toList

variable {w : Wording}

theorem toList_joined (w : Wording) :
    w.joined.toList = ['|'].intercalate (w.types.map String.toList) := by
  rw [joined, String.toList_intercalate]
  rfl

theorem WellFormed.joined_clean (h : w.WellFormed) :
    ∀ c ∈ w.joined.toList, c ≠ ')' ∧ c ≠ '\n' := by
  intro c hc
  rw [toList_joined] at hc
  rcases mem_intercalate hc with hbar | ⟨part, hpart, hc⟩
  · rw [List.mem_singleton.mp hbar]
    decide
  · obtain ⟨type, htype, rfl⟩ := List.mem_map.mp hpart
    have hclean := h.types_clean type htype c hc
    simp only [List.mem_cons, List.not_mem_nil, or_false, not_or] at hclean
    exact hclean.2

theorem WellFormed.splitOn_joined (h : w.WellFormed) :
    (w.joined.toList.splitOn '|').map String.ofList = w.types := by
  have hbar : ∀ part ∈ w.types.map String.toList, '|' ∉ part := by
    intro part hpart hmem
    obtain ⟨type, htype, rfl⟩ := List.mem_map.mp hpart
    exact h.types_clean type htype '|' hmem List.mem_cons_self
  rw [toList_joined, List.splitOn_intercalate '|' hbar (mt List.map_eq_nil_iff.mp h.types_ne_nil),
    List.map_map]
  exact List.map_id'' (fun type => String.ofList_toList) _

/-! ### The type text -/

def typeParts (w : Wording) : List (List Char) :=
  [if w.spread then ['.', '.', '.'] else [], if w.parenthesised then ['('] else [],
    w.joined.toList, if w.parenthesised then [')'] else []]

theorem flatten_typeParts (w : Wording) : w.typeParts.flatten = w.typeText.toList := by
  unfold typeParts typeText
  cases w.spread <;> cases w.parenthesised <;> simp

theorem WellFormed.not_dots_prefix (h : w.WellFormed) :
    ¬ ['.', '.', '.'] <+: w.typeParts.tail.flatten := by
  unfold typeParts
  cases hparenthesised : w.parenthesised with
  | true => simp
  | false => simpa using (h.bare_start hparenthesised).2

theorem WellFormed.preferred_typeParts (h : w.WellFormed) :
    typePattern.Preferred w.typeParts := by
  refine ⟨?_, ?_, ⟨⟨?_, nofun⟩, ?_⟩, ?_, trivial⟩
  · cases w.spread with
    | true => exact .inl rfl
    | false => exact .inr ⟨rfl, h.not_dots_prefix⟩
  · cases hparenthesised : w.parenthesised with
    | true => exact .inl rfl
    | false => exact .inr ⟨rfl, by simpa using (h.bare_start hparenthesised).1⟩
  · intro c hc hmem
    exact (h.joined_clean c hc).1 (List.mem_singleton.mp hmem)
  · cases w.parenthesised <;> simp
  · cases w.parenthesised with
    | true => exact .inl rfl
    | false => exact .inr ⟨rfl, by simp⟩

theorem WellFormed.spreadPattern_fits (h : w.WellFormed) :
    spreadPattern.fits w.typeText.toList = w.spread := by
  rw [← flatten_typeParts]
  cases hspread : w.spread with
  | true =>
      have hbreak : '\n' ∉ w.typeParts.tail.flatten := by
        have hjoined : '\n' ∉ w.joined.toList := fun hmem => (h.joined_clean _ hmem).2 rfl
        unfold typeParts
        cases w.parenthesised <;> simp [hjoined]
      exact spreadPattern_fits_iff.mpr ⟨_, by simp [typeParts, hspread], hbreak⟩
  | false =>
      rw [← Bool.not_eq_true, spreadPattern_fits_iff]
      rintro ⟨rest, htext, -⟩
      exact h.not_dots_prefix ⟨rest, by simp [htext, typeParts, hspread]⟩

/-! ### The name text -/

def nameTail (w : Wording) : List Char :=
  match w.omission with
  | .never => []
  | .allowed => [']']
  | .withDefault text => '=' :: text.toList ++ [']']

/-- The parts of a name text, as they are meant. A bracket at the end belongs to what stands behind
the name. -/
def nameParts (w : Wording) : List (List Char) :=
  [if w.omission ≠ .never then ['['] else [], w.name.toList, w.nameTail, []]

theorem flatten_nameParts (w : Wording) : w.nameParts.flatten = w.nameText.toList := by
  unfold nameParts nameText nameTail
  cases w.omission <;> simp

theorem WellFormed.preferred_nameParts (h : w.WellFormed) :
    namePattern.Preferred w.nameParts := by
  refine ⟨?_, ⟨⟨?_, fun _ => mt String.toList_eq_nil_iff.mp h.name_ne_empty⟩, ?_⟩, ⟨?_, ?_⟩, ?_,
    trivial⟩
  · cases homission : w.omission with
    | never =>
        refine .inr ⟨by simp, fun hprefix => h.name_start ?_⟩
        simpa [nameTail, homission] using hprefix
    | allowed => exact .inl (by simp)
    | withDefault text => exact .inl (by simp)
  · intro c hc hmem
    rcases List.mem_cons.mp hmem with rfl | hmem
    · exact h.name_clean _ hc (by simp)
    · exact h.name_clean c hc (by simp [List.mem_singleton.mp hmem])
  · unfold nameTail
    cases w.omission <;> simp
  · unfold nameTail
    cases homission : w.omission with
    | never => simp
    | allowed => simp
    | withDefault text => simp [h.default_clean text homission]
  · simp
  · exact .inr ⟨rfl, by simp⟩

theorem WellFormed.optionalPattern_fits (h : w.WellFormed) :
    optionalPattern.fits w.nameText.toList = decide (w.omission ≠ .never) := by
  have hname : '\n' ∉ w.name.toList := fun hmem => h.name_clean _ hmem (by simp)
  unfold nameText
  cases homission : w.omission with
  | never =>
      rw [decide_eq_false (by simp), ← Bool.not_eq_true, optionalPattern_fits_iff]
      rintro ⟨line, htext, -⟩
      exact h.name_start ⟨line ++ [']'], htext⟩
  | allowed =>
      rw [decide_eq_true (by simp)]
      exact optionalPattern_fits_iff.mpr ⟨w.name.toList, by simp, hname⟩
  | withDefault text =>
      rw [decide_eq_true (by simp)]
      refine optionalPattern_fits_iff.mpr ⟨w.name.toList ++ '=' :: text.toList, by simp, ?_⟩
      simp [hname, h.default_clean text homission]

end Wording

/-- **A tag that is written for a parameter is read as this parameter**, whatever is written
besides it. -/
theorem parse_tag {w : Wording} (h : w.WellFormed) (description : String) :
    (w.tag description).parse = .ok w.param := by
  have htype : typePattern.parts? w.typeText.toList = some w.typeParts := by
    rw [← w.flatten_typeParts]
    exact Pattern.parts?_of_preferred h.preferred_typeParts
  have hname : namePattern.parts? w.nameText.toList = some w.nameParts := by
    rw [← w.flatten_nameParts]
    exact Pattern.parts?_of_preferred h.preferred_nameParts
  calc (w.tag description).parse
      = .ok
          { types := (w.joined.toList.splitOn '|').map String.ofList
            name := String.ofList w.name.toList
            optional := optionalPattern.fits w.nameText.toList
            spread := spreadPattern.fits w.typeText.toList } := parse_of_parts? htype hname
    _ = .ok w.param := by
      rw [h.splitOn_joined, String.ofList_toList, h.optionalPattern_fits, h.spreadPattern_fits,
        Wording.param]

/-- A spread parameter whose types look like more dots, and whose default like more brackets. -/
def Wording.values : Wording where
  types := ["...Array", "(Object"]
  name := "values"
  omission := .withDefault "[a=[1]]"
  spread := true
  parenthesised := true

theorem parse_tag_values :
    Wording.values.WellFormed
      ∧ (⟨"...(...Array|(Object)", "[values=[a=[1]]]", "Them."⟩ : ParamTag).parse
        = .ok ⟨["...Array", "(Object"], "values", true, true⟩ := by
  have hwell : Wording.values.WellFormed :=
    { types_ne_nil := by decide
      types_clean := by simp [Wording.values]
      bare_start := by decide
      name_ne_empty := by decide
      name_clean := by simp [Wording.values]
      name_start := by decide
      default_clean := fun text htext => by cases htext; decide }
  exact ⟨hwell, parse_tag hwell "Them."⟩

end ParamTag

end CurriedTypings.Docs
