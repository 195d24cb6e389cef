import CurriedTypings.TypeExpr.Reader

/-!
# Printed types are unambiguous

A type can be told from its printed text, whatever it is nested in. Two facts about
the reader of `TypeExpr/Reader` show it.

- *What has been read is never lost.* The open lists and the pending piece of a
  reader spell out the characters read so far (`Reader.text`), and one more character
  is put behind them (`text_of_step`). So a text that is read as a type is its
  printed form.
- *A printed type is read in any context.* Whatever lists are open, reading the
  printed form of a type ends with that type pending (`Legible`). The induction is on
  the type; an argument list is read argument by argument, since every argument leaves
  the lists around it as they were.
-/

namespace CurriedTypings

namespace TypeExpr

/-! ## References to helper types -/

theorem varNamed?_eq_some_iff {name : String} {v : TypeVar} :
    varNamed? name = some v ↔ name = v.name := by
  unfold varNamed?
  constructor
  · intro h
    have hname := List.find?_some h
    exact (of_decide_eq_true hname).symm
  · rintro rfl
    cases v <;> decide

/-- A composite type refers to a helper type, with arguments. -/
inductive IsComposite : TypeExpr → String → List TypeExpr → Prop
  | collection (element : TypeExpr) : IsComposite (.collection element) collectionName [element]
  | iteratee (k : CallbackArity) (value result : TypeExpr) :
      IsComposite (.iteratee k value result) k.typeName [value, result]
  | continuation (remaining : List TypeExpr) (result : TypeExpr) :
      IsComposite (.continuation remaining result) (continuationName remaining.length)
        (remaining ++ [result])

theorem isComposite_of_reference? {t : TypeExpr} {name : String} {args : List TypeExpr}
    (h : t.reference? = some (name, args)) : IsComposite t name args := by
  cases t with
  | var v => cases h
  | array element => cases h
  | collection element =>
      obtain ⟨rfl, rfl⟩ := Prod.mk.inj (Option.some.inj h)
      exact .collection element
  | iteratee k value result =>
      obtain ⟨rfl, rfl⟩ := Prod.mk.inj (Option.some.inj h)
      exact .iteratee k value result
  | continuation remaining result =>
      obtain ⟨rfl, rfl⟩ := Prod.mk.inj (Option.some.inj h)
      exact .continuation remaining result

theorem reference?_of_mem_composites {args : List TypeExpr} {t : TypeExpr}
    (h : t ∈ composites args) : ∃ name, t.reference? = some (name, args) := by
  unfold composites at h
  rcases List.mem_append.mp h with h | h
  · obtain ⟨last, hlast, rfl⟩ := Option.map_eq_some_iff.mp (Option.mem_toList.mp h)
    obtain ⟨init, rfl⟩ := List.getLast?_eq_some_iff.mp hlast
    rw [List.dropLast_concat]
    exact ⟨_, rfl⟩
  · split at h
    · obtain rfl := List.mem_singleton.mp h
      exact ⟨_, rfl⟩
    · simp only [List.mem_cons, List.not_mem_nil, or_false] at h
      rcases h with rfl | rfl <;> exact ⟨_, rfl⟩
    · cases h

/-- A reference stands for the one type that refers to this helper type with these
arguments. -/
theorem applied?_eq_some_iff {name : String} {args : List TypeExpr} {t : TypeExpr} :
    applied? name args = some t ↔ t.reference? = some (name, args) := by
  unfold applied?
  constructor
  · intro h
    obtain ⟨name', href⟩ := reference?_of_mem_composites (List.mem_of_find?_eq_some h)
    have hfound := List.find?_some h
    have hname := of_decide_eq_true hfound
    rw [href] at hname ⊢
    rw [← Option.some.inj hname]
  · intro h
    cases isComposite_of_reference? h with
    | collection element =>
        -- a continuation over no arguments is told from a collection by its name
        simp [composites, reference?, show continuationName 0 ≠ collectionName by decide]
    | iteratee k value result =>
        have hwidth : continuationName 1 ≠ k.typeName := by cases k <;> decide
        cases k with
        | unary => simp [composites, reference?, hwidth]
        | binary =>
            have hother : CallbackArity.typeName .unary ≠ CallbackArity.typeName .binary := by
              decide
            simp [composites, reference?, hwidth, hother]
    | continuation remaining result =>
        simp [composites, reference?]

theorem print_of_reference? {t : TypeExpr} {name : String} {args : List TypeExpr}
    (h : t.reference? = some (name, args)) :
    t.print = name ++ "<" ++ commaSeparated (args.map print) ++ ">" := by
  cases isComposite_of_reference? h with
  | collection element =>
      simp [print, commaSeparated]
  | iteratee k value result =>
      simp [print, commaSeparated, String.append_assoc]
  | continuation remaining result =>
      simp [print, printAll_eq_map]

/-- The arguments of a list that more arguments follow. -/
def leading (args : List TypeExpr) : List Char :=
  args.flatMap fun t => t.print.toList ++ [',', ' ']

theorem leading_append_singleton (args : List TypeExpr) (t : TypeExpr) :
    leading (args ++ [t]) = leading args ++ (t.print.toList ++ [',', ' ']) := by
  simp [leading]

theorem toList_commaSeparated (args : List TypeExpr) (last : TypeExpr) :
    (commaSeparated ((args ++ [last]).map print)).toList = leading args ++ last.print.toList := by
  unfold commaSeparated
  induction args with
  | nil => simp [leading]
  | cons t args ih =>
      obtain ⟨u, rest, hrest⟩ := List.exists_cons_of_ne_nil
        (show (args ++ [last]).map print ≠ [] by simp)
      rw [hrest] at ih
      rw [List.cons_append, List.map_cons, hrest, String.intercalate_cons_cons,
        String.toList_append, String.toList_append, ih]
      simp [leading]

theorem toList_print_of_reference? {t last : TypeExpr} {name : String} {args : List TypeExpr}
    (h : t.reference? = some (name, args ++ [last])) :
    t.print.toList = name.toList ++ '<' :: (leading args ++ last.print.toList ++ ['>']) := by
  rw [print_of_reference? h, String.toList_append, String.toList_append, String.toList_append,
    toList_commaSeparated]
  simp

mutual

/-- What holds of variables, of arrays of a type of which it holds, and of references to helper
types if it holds of their arguments, holds of all types. -/
theorem reference_induction {P : TypeExpr → Prop} (hvar : ∀ v, P (var v))
    (harray : ∀ {element}, P element → P (array element))
    (hreference : ∀ {t last : TypeExpr} {name : String} {args : List TypeExpr},
      t.reference? = some (name, args ++ [last]) → (∀ u ∈ args, P u) → P last → P t) :
    ∀ t : TypeExpr, P t
  | var v => hvar v
  | array element => harray (reference_induction hvar harray hreference element)
  | collection element =>
      hreference (show _ = some (collectionName, [] ++ [element]) from rfl) (List.forall_mem_nil _)
        (reference_induction hvar harray hreference element)
  | iteratee k value result =>
      hreference (show _ = some (k.typeName, [value] ++ [result]) from rfl)
        (List.forall_mem_singleton.mpr (reference_induction hvar harray hreference value))
        (reference_induction hvar harray hreference result)
  | continuation remaining result =>
      hreference rfl (reference_induction_of_mem hvar harray hreference remaining)
        (reference_induction hvar harray hreference result)

theorem reference_induction_of_mem {P : TypeExpr → Prop} (hvar : ∀ v, P (var v))
    (harray : ∀ {element}, P element → P (array element))
    (hreference : ∀ {t last : TypeExpr} {name : String} {args : List TypeExpr},
      t.reference? = some (name, args ++ [last]) → (∀ u ∈ args, P u) → P last → P t) :
    ∀ ts : List TypeExpr, ∀ t ∈ ts, P t
  | [] => List.forall_mem_nil _
  | t :: ts => List.forall_mem_cons.mpr
      ⟨reference_induction hvar harray hreference t,
        reference_induction_of_mem hvar harray hreference ts⟩

end

/-! ## What has been read -/

namespace Reader

def Pending.text : Pending → List Char
  | name read => read
  | type t => t.print.toList
  | bracket t => t.print.toList ++ ['[']
  | comma t => t.print.toList ++ [',']

def outerText : List Frame → List Char
  | [] => []
  | f :: outer => outerText outer ++ (f.name.toList ++ '<' :: leading f.args)

/-- The characters that have been read. -/
def text (r : Reader) : List Char := outerText r.lists ++ r.pending.text

theorem Pending.text_of_type? {p : Pending} {t : TypeExpr} (h : p.type? = some t) :
    p.text = t.print.toList := by
  cases p with
  | name read =>
      obtain ⟨v, hv, rfl⟩ := Option.map_eq_some_iff.mp h
      rw [Pending.text, print, ← varNamed?_eq_some_iff.mp hv, String.toList_ofList]
  | type u =>
      obtain rfl := Option.some.inj h
      rfl
  | bracket u => cases h
  | comma u => cases h

theorem text_of_result? {r : Reader} {t : TypeExpr} (h : r.result? = some t) :
    r.text = t.print.toList := by
  unfold result? at h
  split at h
  · rename_i hlists
    rw [text, List.isEmpty_iff.mp hlists, Pending.text_of_type? h]
    rfl
  · cases h

/-- One more character goes behind those that have been read. -/
theorem text_of_step {r r' : Reader} {c : Char} (h : r.step c = some r') :
    r'.text = r.text ++ [c] := by
  obtain ⟨lists, pending⟩ := r
  unfold step at h
  split at h
  · split at h
    · rename_i read hread
      obtain rfl := Option.some.inj h
      obtain rfl : pending = .name read := hread
      simp [text, outerText, Pending.text, leading]
    · cases h
  · split at h
    · rename_i f outer t hlists ht
      obtain ⟨u, hu, rfl⟩ := Option.map_eq_some_iff.mp h
      obtain rfl : lists = f :: outer := hlists
      have hprint := toList_print_of_reference? (applied?_eq_some_iff.mp hu)
      simp only [text, Pending.text_of_type? ht]
      simp [outerText, Pending.text, hprint]
    · cases h
  · obtain ⟨t, ht, rfl⟩ := Option.map_eq_some_iff.mp h
    simp only [text, Pending.text_of_type? ht]
    simp [Pending.text]
  · split at h
    · rename_i f outer t hlists ht
      obtain rfl := Option.some.inj h
      obtain rfl : lists = f :: outer := hlists
      obtain rfl : pending = .comma t := ht
      simp [text, outerText, Pending.text, leading_append_singleton]
    · cases h
  · obtain ⟨t, ht, rfl⟩ := Option.map_eq_some_iff.mp h
    simp only [text, Pending.text_of_type? ht]
    simp [Pending.text]
  · split at h
    · rename_i t ht
      obtain rfl := Option.some.inj h
      obtain rfl : pending = .bracket t := ht
      simp [text, Pending.text, print]
    · cases h
  · split at h
    · rename_i read hread
      split at h
      · obtain rfl := Option.some.inj h
        obtain rfl : pending = .name read := hread
        simp [text, Pending.text]
      · cases h
    · cases h

/-- A type that is read from a text is what the text starts with. -/
theorem text_of_readFrom {t : TypeExpr} {rest : List Char} : ∀ {cs : List Char} {r : Reader},
    r.readFrom cs = some (t, rest) → r.text ++ cs = t.print.toList ++ rest
  | [], r, h => by
      obtain ⟨u, hu, heq⟩ := Option.map_eq_some_iff.mp h
      obtain ⟨rfl, rfl⟩ := Prod.mk.inj heq
      rw [text_of_result? hu]
  | c :: cs, r, h => by
      unfold readFrom at h
      split at h
      · obtain ⟨u, hu, heq⟩ := Option.map_eq_some_iff.mp h
        obtain ⟨rfl, rfl⟩ := Prod.mk.inj heq
        rw [text_of_result? hu]
      · obtain ⟨r', hr, h⟩ := Option.bind_eq_some_iff.mp h
        rw [← text_of_readFrom h, text_of_step hr, List.append_assoc]
        rfl

/-! ## Printed types -/

theorem readFrom_of_step {r r' : Reader} {c : Char} (hends : r.endsBefore c = false)
    (h : r.step c = some r') (cs : List Char) : r.readFrom (c :: cs) = r'.readFrom cs := by
  rw [readFrom, hends, h]
  rfl

theorem endsBefore_of_lists {f : Frame} {outer : List Frame} {p : Pending} (c : Char) :
    endsBefore ⟨f :: outer, p⟩ c = false := rfl

theorem step_alphanum {c : Char} (hc : c.isAlphanum) (lists : List Frame) (read : List Char) :
    step ⟨lists, .name read⟩ c = some ⟨lists, .name (read ++ [c])⟩ := by
  unfold step
  split <;> first | exact absurd hc (by decide) | exact if_pos hc

theorem endsBefore_alphanum {c : Char} (hc : c.isAlphanum) (r : Reader) :
    r.endsBefore c = false := by
  have hcomma : c ≠ ',' := by rintro rfl; exact absurd hc (by decide)
  have hclose : c ≠ '>' := by rintro rfl; exact absurd hc (by decide)
  simp [endsBefore, hcomma, hclose]

theorem readFrom_name {name : List Char} (h : ∀ c ∈ name, c.isAlphanum) (lists : List Frame)
    (rest : List Char) : ∀ read : List Char,
      readFrom ⟨lists, .name read⟩ (name ++ rest) = readFrom ⟨lists, .name (read ++ name)⟩ rest := by
  induction name with
  | nil => simp
  | cons c name ih =>
      intro read
      have hc : c.isAlphanum := h c (List.mem_cons_self ..)
      rw [List.cons_append, readFrom_of_step (endsBefore_alphanum hc _) (step_alphanum hc lists read),
        ih (fun d hd => h d (List.mem_cons_of_mem _ hd)), List.append_assoc]
      rfl

end Reader

open Reader

theorem isAlphanum_of_mem_toString {n : Nat} {c : Char} (h : c ∈ (toString n).toList) :
    c.isAlphanum := by
  have hdigit : c.isDigit :=
    Nat.isDigit_of_mem_toDigits (b := 10) (by decide) (by decide) (by simpa using h)
  simp [Char.isAlphanum, hdigit]

theorem isAlphanum_of_mem_name (v : TypeVar) : ∀ c ∈ v.name.toList, c.isAlphanum := by
  cases v <;> exact List.all_eq_true.mp rfl

theorem isAlphanum_of_reference? {t : TypeExpr} {name : String} {args : List TypeExpr}
    (h : t.reference? = some (name, args)) : ∀ c ∈ name.toList, c.isAlphanum := by
  cases isComposite_of_reference? h with
  | collection element =>
      exact List.all_eq_true.mp rfl
  | iteratee k value result =>
      cases k <;> exact List.all_eq_true.mp rfl
  | continuation remaining result =>
      intro c hc
      rw [continuationName, String.toList_append] at hc
      rcases List.mem_append.mp hc with hc | hc
      · exact List.all_eq_true.mp (show "Curry".toList.all Char.isAlphanum from rfl) c hc
      · exact isAlphanum_of_mem_toString hc

/-- Whatever lists are open, reading the printed form of this type ends with the type pending. -/
def Legible (t : TypeExpr) : Prop :=
  ∀ lists : List Frame, ∃ p : Pending, p.type? = some t ∧
    ∀ rest, readFrom ⟨lists, .name []⟩ (t.print.toList ++ rest) = readFrom ⟨lists, p⟩ rest

theorem legible_var (v : TypeVar) : Legible (var v) := by
  intro lists
  refine ⟨.name v.name.toList, ?_, fun rest => ?_⟩
  · rw [Pending.type?, String.ofList_toList, varNamed?_eq_some_iff.mpr rfl]
    rfl
  · exact readFrom_name (isAlphanum_of_mem_name v) lists rest []

theorem legible_array {element : TypeExpr} (h : Legible element) : Legible (array element) := by
  intro lists
  obtain ⟨p, hp, hread⟩ := h lists
  refine ⟨.type (array element), rfl, fun rest => ?_⟩
  have hopen : step ⟨lists, p⟩ '[' = some ⟨lists, .bracket element⟩ := by simp [step, hp]
  have hclose : step ⟨lists, .bracket element⟩ ']' = some ⟨lists, .type (array element)⟩ := rfl
  rw [print, String.toList_append, List.append_assoc, hread]
  exact (readFrom_of_step (by simp [endsBefore]) hopen _).trans
    (readFrom_of_step (by simp [endsBefore]) hclose _)

/-- The arguments of a list are read one after the other, up to the last one. -/
theorem readFrom_leading {name : String} {outer : List Frame} (rest : List Char) :
    ∀ {args done : List TypeExpr}, (∀ t ∈ args, Legible t) →
      readFrom ⟨⟨name, done⟩ :: outer, .name []⟩ (leading args ++ rest)
        = readFrom ⟨⟨name, done ++ args⟩ :: outer, .name []⟩ rest
  | [], done, _ => by simp [leading]
  | t :: args, done, h => by
      obtain ⟨p, hp, hread⟩ := h t (List.mem_cons_self ..) (⟨name, done⟩ :: outer)
      have hcomma : step ⟨⟨name, done⟩ :: outer, p⟩ ',' = some ⟨⟨name, done⟩ :: outer, .comma t⟩ := by
        simp [step, hp]
      have hspace : step ⟨⟨name, done⟩ :: outer, .comma t⟩ ' '
          = some ⟨⟨name, done ++ [t]⟩ :: outer, .name []⟩ := rfl
      have hsplit : leading (t :: args) ++ rest
          = t.print.toList ++ (',' :: ' ' :: (leading args ++ rest)) := by simp [leading]
      rw [hsplit, hread, readFrom_of_step (endsBefore_of_lists _) hcomma,
        readFrom_of_step (endsBefore_of_lists _) hspace,
        readFrom_leading rest fun u hu => h u (List.mem_cons_of_mem _ hu), List.append_assoc]
      rfl

theorem legible_of_reference? {t last : TypeExpr} {name : String} {args : List TypeExpr}
    (href : t.reference? = some (name, args ++ [last])) (hargs : ∀ u ∈ args, Legible u)
    (hlast : Legible last) : Legible t := by
  intro lists
  refine ⟨.type t, rfl, fun rest => ?_⟩
  obtain ⟨p, hp, hread⟩ := hlast (⟨name, args⟩ :: lists)
  have hopen : step ⟨lists, .name name.toList⟩ '<' = some ⟨⟨name, []⟩ :: lists, .name []⟩ := by
    simp [step]
  have hclose : step ⟨⟨name, args⟩ :: lists, p⟩ '>' = some ⟨lists, .type t⟩ := by
    simp [step, hp, applied?_eq_some_iff.mpr href]
  calc readFrom ⟨lists, .name []⟩ (t.print.toList ++ rest)
      = readFrom ⟨lists, .name []⟩
          (name.toList ++ ('<' :: (leading args ++ (last.print.toList ++ ('>' :: rest))))) := by
        rw [toList_print_of_reference? href]
        simp
    _ = readFrom ⟨lists, .name name.toList⟩
          ('<' :: (leading args ++ (last.print.toList ++ ('>' :: rest)))) :=
        readFrom_name (isAlphanum_of_reference? href) lists _ []
    _ = readFrom ⟨⟨name, []⟩ :: lists, .name []⟩
          (leading args ++ (last.print.toList ++ ('>' :: rest))) :=
        readFrom_of_step (by simp [endsBefore]) hopen _
    _ = readFrom ⟨⟨name, args⟩ :: lists, .name []⟩ (last.print.toList ++ ('>' :: rest)) :=
        readFrom_leading _ hargs
    _ = readFrom ⟨⟨name, args⟩ :: lists, p⟩ ('>' :: rest) := hread _
    _ = readFrom ⟨lists, .type t⟩ rest := readFrom_of_step (endsBefore_of_lists _) hclose _

theorem legible (t : TypeExpr) : Legible t :=
  reference_induction legible_var legible_array legible_of_reference? t

/-! ## Reading back -/

/-- Nothing follows, or what ends an argument: the next argument or the end of the list. -/
def EndsArgument (after : String) : Prop := ∀ c ∈ after.toList.head?, c = ',' ∨ c = '>'

theorem readFrom_of_endsArgument {p : Pending} {t : TypeExpr} (hp : p.type? = some t)
    {after : String} (h : EndsArgument after) :
    readFrom ⟨[], p⟩ after.toList = some (t, after.toList) := by
  have hresult : result? ⟨[], p⟩ = some t := hp
  cases hafter : after.toList with
  | nil => rw [readFrom, hresult]; rfl
  | cons c cs =>
      have hc : c = ',' ∨ c = '>' := h c (by rw [hafter]; rfl)
      have hends : endsBefore ⟨[], p⟩ c := by simpa [endsBefore] using hc
      rw [readFrom, if_pos hends, hresult]
      rfl

theorem readArgument_print (t : TypeExpr) (after : String) (h : EndsArgument after) :
    readArgument (t.print ++ after) = some (t, after) := by
  obtain ⟨p, hp, hread⟩ := legible t []
  have hrun : readFrom {} (t.print ++ after).toList = some (t, after.toList) := by
    rw [String.toList_append]
    exact (hread _).trans (readFrom_of_endsArgument hp h)
  simp only [readArgument, hrun, Option.map_some, String.ofList_toList]

theorem eq_print_of_readArgument {text after : String} {t : TypeExpr}
    (h : readArgument text = some (t, after)) : text = t.print ++ after := by
  obtain ⟨⟨u, rest⟩, hread, heq⟩ := Option.map_eq_some_iff.mp h
  obtain ⟨rfl, rfl⟩ := Prod.mk.inj heq
  have htext := text_of_readFrom hread
  rw [← String.toList_inj, String.toList_append, String.toList_ofList, ← htext]
  rfl

theorem read_eq_some_iff {text : String} {t : TypeExpr} : read text = some t ↔ text = t.print := by
  unfold read
  constructor
  · intro h
    split at h
    · rename_i u rest hread
      split at h
      · rename_i hrest
        obtain rfl := Option.some.inj h
        rw [eq_print_of_readArgument hread, String.isEmpty_iff.mp hrest, String.append_empty]
      · cases h
    · cases h
  · rintro rfl
    have hread := readArgument_print t "" (by simp [EndsArgument])
    rw [String.append_empty] at hread
    rw [hread]
    rfl

/-- What stands behind an argument that these arguments follow. -/
def following : List TypeExpr → String
  | [] => ""
  | ts => ", " ++ commaSeparated (ts.map print)

theorem readArgument_commaSeparated (t : TypeExpr) (ts : List TypeExpr) :
    readArgument (commaSeparated ((t :: ts).map print)) = some (t, following ts) := by
  have hsplit : commaSeparated ((t :: ts).map print) = t.print ++ following ts := by
    cases ts with
    | nil => simp [commaSeparated, following]
    | cons u us =>
        simp only [commaSeparated, following, List.map_cons, String.intercalate_cons_cons]
        rw [String.append_assoc]
  have hends : EndsArgument (following ts) := by
    cases ts <;> simp [EndsArgument, following]
  rw [hsplit, readArgument_print t _ hends]

theorem commaSeparated_of_following {ts us : List TypeExpr} (h : following ts = following us) :
    commaSeparated (ts.map print) = commaSeparated (us.map print) := by
  rw [← String.toList_inj] at h ⊢
  cases ts with
  | nil =>
      cases us with
      | nil => rfl
      | cons u us => simp [following] at h
  | cons t ts =>
      cases us with
      | nil => simp [following] at h
      | cons u us => simpa [following] using h

theorem commaSeparated_print_inj {ts us : List TypeExpr}
    (h : commaSeparated (ts.map print) = commaSeparated (us.map print)) : ts = us := by
  induction ts generalizing us with
  | nil =>
      cases us with
      | nil => rfl
      | cons u us =>
          have hread := readArgument_commaSeparated u us
          rw [← h] at hread
          cases hread
  | cons t ts ih =>
      have hread := readArgument_commaSeparated t ts
      cases us with
      | nil =>
          rw [h] at hread
          cases hread
      | cons u us =>
          rw [h, readArgument_commaSeparated u us] at hread
          obtain ⟨rfl, hrest⟩ := Prod.mk.inj (Option.some.inj hread)
          rw [ih (commaSeparated_of_following hrest.symm)]

/-- **Printed types are unambiguous.** A text reads as a type exactly if it is the printed form
of this type, so no two types print alike. The same holds in front of the comma or the bracket
that ends an argument, where reading stops and leaves the rest of the text; so no two argument
lists print alike either. -/
theorem print_unambiguous :
    (∀ text t, read text = some t ↔ text = t.print)
      ∧ Function.Injective print
      ∧ (∀ t after, EndsArgument after → readArgument (t.print ++ after) = some (t, after))
      ∧ Function.Injective fun args : List TypeExpr => commaSeparated (args.map print) := by
  refine ⟨fun text t => read_eq_some_iff, ?_, readArgument_print, ?_⟩
  · intro t u h
    have ht : read t.print = some t := read_eq_some_iff.mpr rfl
    rw [h, read_eq_some_iff.mpr rfl] at ht
    exact (Option.some.inj ht).symm
  · intro ts us h
    exact commaSeparated_print_inj h

/-- The width in front of an argument list has to count it. -/
example : read "Curry1<Iteratee2<A, C[]>, Curry0<CollectionOf<Z>>[]>"
      = some (.continuation [.iteratee .binary (.var .a) (.array (.var .c))]
          (.array (.continuation [] (.collection (.var .z)))))
    ∧ read "Curry2<A, Z>" = none := by
  constructor <;> rfl

end TypeExpr

end CurriedTypings
