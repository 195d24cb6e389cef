import CurriedTypings.Text.Pattern
import Mathlib.Data.List.Forall2

/-!
# Divisions by a pattern

Which parts a pattern finds is a matter of the order in which the ways of its pieces are
tried. Whether it finds any is not: a text fits a pattern if and only if some division of it
does, whatever the order (`fits_iff`), and the parts that are found are one of these
divisions (`divides_of_parts?`).

The order matters where a text has several divisions. The one that is found is then the one in
which every piece takes the part it tries first, if there is such a division
(`parts?_of_preferred`): an optional text is there unless it cannot be, and a run goes on as long
as its characters last.
-/

namespace CurriedTypings.Text

/-! ## Runs -/

theorem mem_runs_iff {p : Char → Bool} {cs part rest : List Char} :
    (part, rest) ∈ runs p cs ↔ part ++ rest = cs ∧ ∀ c ∈ part, p c := by
  induction cs generalizing part with
  | nil => cases part <;> simp [runs]
  | cons c cs ih =>
      cases part with
      | nil =>
          by_cases hc : p c <;> simp [runs, hc]
      | cons d part =>
          have htail : (d :: part, rest) ∈ (runs p cs).map (Prod.map (c :: ·) id) ↔
              d = c ∧ (part, rest) ∈ runs p cs := by
            rw [List.mem_map]
            constructor
            · rintro ⟨way, hmem, ⟨⟩⟩
              exact ⟨rfl, hmem⟩
            · rintro ⟨rfl, hmem⟩
              exact ⟨(part, rest), hmem, rfl⟩
          by_cases hc : p c
          · rw [runs, if_pos hc, List.mem_append, htail, ih]
            simp only [List.mem_singleton, Prod.mk.injEq, reduceCtorEq, false_and, or_false,
              List.cons_append, List.cons.injEq, List.forall_mem_cons]
            constructor
            · rintro ⟨rfl, happend, hpart⟩
              exact ⟨⟨rfl, happend⟩, hc, hpart⟩
            · rintro ⟨⟨rfl, happend⟩, -, hpart⟩
              exact ⟨rfl, happend, hpart⟩
          · rw [runs, if_neg hc]
            simp only [List.mem_singleton, Prod.mk.injEq, reduceCtorEq, false_and, List.cons_append,
              List.cons.injEq, List.forall_mem_cons, false_iff, not_and]
            rintro ⟨rfl, -⟩ hd
            exact absurd hd hc

/-- The first run goes on as long as the characters satisfy `p`. -/
theorem runs_append {p : Char → Bool} {part rest : List Char} (hpart : ∀ c ∈ part, p c)
    (hrest : ∀ c ∈ rest.head?, ¬ p c) : ∃ others, runs p (part ++ rest) = (part, rest) :: others := by
  induction part with
  | nil =>
      cases rest with
      | nil => exact ⟨[], rfl⟩
      | cons c rest => exact ⟨[], by rw [List.nil_append, runs, if_neg (hrest c rfl)]⟩
  | cons c part ih =>
      obtain ⟨hc, hpart⟩ := List.forall_mem_cons.mp hpart
      obtain ⟨others, hothers⟩ := ih hpart
      refine ⟨others.map (Prod.map (c :: ·) id) ++ [([], c :: (part ++ rest))], ?_⟩
      rw [List.cons_append, runs, if_pos hc, hothers]
      rfl

/-! ## Fixed texts -/

theorem mem_fixed_iff {text cs part rest : List Char} :
    (part, rest) ∈ fixed text cs ↔ part ++ rest = cs ∧ part = text := by
  unfold fixed
  by_cases htext : text <+: cs
  · obtain ⟨suffix, rfl⟩ := htext
    rw [if_pos (List.isPrefixOf_iff_prefix.mpr (List.prefix_append _ _)), List.drop_left,
      List.mem_singleton, Prod.mk.injEq, and_comm]
    refine and_congr_left fun hpart => ?_
    rw [hpart, List.append_cancel_left_eq]
  · rw [if_neg (mt List.isPrefixOf_iff_prefix.mp htext)]
    refine iff_of_false List.not_mem_nil ?_
    rintro ⟨rfl, rfl⟩
    exact htext (List.prefix_append _ _)

theorem fixed_append (text rest : List Char) : fixed text (text ++ rest) = [(text, rest)] := by
  rw [fixed, if_pos (List.isPrefixOf_iff_prefix.mpr (List.prefix_append _ _)), List.drop_left]

theorem fixed_of_not_prefix {text cs : List Char} (h : ¬ text <+: cs) : fixed text cs = [] :=
  if_neg (mt List.isPrefixOf_iff_prefix.mp h)

/-! ## Pieces -/

namespace Piece

/-- What a piece may take. -/
def Takes : Piece → List Char → Prop
  | literal text, part => part = text
  | optional text, part => part = text ∨ part = []
  | group excluded mayBeEmpty, part =>
    (∀ c ∈ part, c ∉ excluded) ∧ (mayBeEmpty = false → part ≠ [])
  | line, part => '\n' ∉ part

theorem mem_ways_iff {piece : Piece} {cs part rest : List Char} :
    (part, rest) ∈ piece.ways cs ↔ part ++ rest = cs ∧ piece.Takes part := by
  cases piece with
  | literal text => exact mem_fixed_iff
  | optional text =>
      have hmissing : (part, rest) = ([], cs) ↔ part ++ rest = cs ∧ part = [] := by
        rw [Prod.mk.injEq, and_comm]
        refine and_congr_left fun hpart => ?_
        rw [hpart, List.nil_append]
      rw [ways, List.mem_append, List.mem_singleton, mem_fixed_iff, hmissing, ← and_or_left, Takes]
  | group excluded mayBeEmpty =>
      cases mayBeEmpty with
      | true => simp [ways, Takes, mem_runs_iff]
      | false => simp [ways, Takes, mem_runs_iff, and_assoc]
  | line =>
      have hline : (∀ c ∈ part, decide (c ≠ '\n') = true) ↔ '\n' ∉ part := by
        simp only [decide_eq_true_eq]
        exact ⟨fun h hmem => h _ hmem rfl, fun h c hc heq => h (heq ▸ hc)⟩
      rw [ways, mem_runs_iff, hline, Takes]

/-- A piece takes the part it tries first when `rest` is left. -/
def Prefers : Piece → List Char → List Char → Prop
  | literal text, part, _ => part = text
  | optional text, part, rest => part = text ∨ part = [] ∧ ¬ text <+: rest
  | group excluded mayBeEmpty, part, rest =>
    (group excluded mayBeEmpty).Takes part ∧ ∀ c ∈ rest.head?, c ∈ excluded
  | line, part, rest => '\n' ∉ part ∧ ∀ c ∈ rest.head?, c = '\n'

theorem ways_append {piece : Piece} {part rest : List Char} (h : piece.Prefers part rest) :
    ∃ others, piece.ways (part ++ rest) = (part, rest) :: others := by
  cases piece with
  | literal text =>
      obtain rfl := h
      exact ⟨[], fixed_append _ _⟩
  | optional text =>
      rcases h with rfl | ⟨rfl, hmissing⟩
      · exact ⟨[([], part ++ rest)], by rw [ways, fixed_append, List.singleton_append]⟩
      · exact ⟨[], by rw [ways, List.nil_append, fixed_of_not_prefix hmissing, List.nil_append]⟩
  | group excluded mayBeEmpty =>
      obtain ⟨⟨hpart, hnonempty⟩, hrest⟩ := h
      obtain ⟨others, hothers⟩ := @runs_append (fun c => decide (c ∉ excluded)) part rest
        (fun c hc => decide_eq_true (hpart c hc)) (fun c hc => by simpa using hrest c hc)
      cases mayBeEmpty with
      | true => exact ⟨others, hothers⟩
      | false =>
          refine ⟨others.filter fun way => way.1 ≠ [], ?_⟩
          rw [ways, hothers]
          exact List.filter_cons_of_pos (decide_eq_true (hnonempty rfl))
  | line =>
      obtain ⟨hpart, hrest⟩ := h
      refine runs_append (fun c hc => decide_eq_true ?_) fun c hc => by simpa using hrest c hc
      rintro rfl
      exact hpart hc

end Piece

/-! ## Patterns -/

namespace Pattern

/-- A division of a text into parts, each of which its piece may take. -/
def Divides (pattern : Pattern) (parts : List (List Char)) (cs : List Char) : Prop :=
  List.Forall₂ Piece.Takes pattern parts ∧ parts.flatten = cs

/-- The parts that are found are a division. -/
theorem divides_of_parts? {pattern : Pattern} {parts : List (List Char)} {cs : List Char}
    (h : pattern.parts? cs = some parts) : pattern.Divides parts cs := by
  induction pattern generalizing parts cs with
  | nil =>
      cases cs with
      | nil =>
          obtain rfl := Option.some.inj h
          exact ⟨.nil, rfl⟩
      | cons c cs => cases h
  | cons piece pieces ih =>
      unfold parts? at h
      obtain ⟨⟨part, rest⟩, hway, hparts⟩ := List.exists_of_findSome?_eq_some h
      obtain ⟨others, hothers, rfl⟩ := Option.map_eq_some_iff.mp hparts
      obtain ⟨rfl, htakes⟩ := Piece.mem_ways_iff.mp hway
      obtain ⟨hall, rfl⟩ := ih hothers
      exact ⟨.cons htakes hall, rfl⟩

/-- **A text fits a pattern as soon as there is any division.** No way that is tried first keeps
another one from being found. -/
theorem fits_iff {pattern : Pattern} {cs : List Char} :
    pattern.fits cs ↔ ∃ parts, pattern.Divides parts cs := by
  unfold fits
  constructor
  · intro h
    obtain ⟨parts, hparts⟩ := Option.isSome_iff_exists.mp h
    exact ⟨parts, divides_of_parts? hparts⟩
  · rintro ⟨parts, hall, rfl⟩
    induction hall with
    | nil => rfl
    | @cons piece part pieces parts htakes hall ih =>
        obtain ⟨found, hfound⟩ := Option.isSome_iff_exists.mp ih
        have hway : (part, parts.flatten) ∈ piece.ways (part ++ parts.flatten) :=
          Piece.mem_ways_iff.mpr ⟨rfl, htakes⟩
        rw [List.flatten_cons, parts?, List.findSome?_isSome_iff]
        exact ⟨_, hway, by simp [hfound]⟩

/-- A division in which every piece takes the part it tries first. -/
def Preferred : Pattern → List (List Char) → Prop
  | [], [] => True
  | piece :: pieces, part :: parts =>
    piece.Prefers part parts.flatten ∧ Preferred pieces parts
  | _, _ => False

/-- Such a division is the one that is found. -/
theorem parts?_of_preferred {pattern : Pattern} {parts : List (List Char)}
    (h : pattern.Preferred parts) : pattern.parts? parts.flatten = some parts := by
  induction pattern generalizing parts with
  | nil =>
      cases parts with
      | nil => rfl
      | cons part parts => exact h.elim
  | cons piece pieces ih =>
      cases parts with
      | nil => exact h.elim
      | cons part parts =>
          obtain ⟨hprefers, hrest⟩ := h
          obtain ⟨others, hothers⟩ := Piece.ways_append hprefers
          rw [List.flatten_cons, parts?, hothers, List.findSome?_cons]
          simp only [ih hrest, Option.map_some]

end Pattern

end CurriedTypings.Text
