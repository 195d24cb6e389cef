import CurriedTypings.Json.Text
import CurriedTypings.Proofs.Json.Forms
import CurriedTypings.Proofs.Traversal

/-!
# Taking tokens off a document

`Takes` says what a reader does with a document: which value it takes off the front, and
what it leaves. Space in front of a token makes no difference (`nextToken_of_starts`), and
what follows a value is again a token (`Ends`), so that nobody reads further than the value
goes.

Strings are read character by character. Each form of a character is read as this character
(`CharForm.takes`), and the string as all of them (`CharsForm.takes`).
-/

namespace CurriedTypings.Json

variable {α : Type}

/-- A reader takes this value off a document and leaves this rest. -/
def Takes (r : Reader α) (cs : List Char) (a : α) (rest : List Char) : Prop :=
  ∃ h, r cs = .ok (a, ⟨rest, h⟩)

/-- What may follow a value: the end of the document, space, or the end of an item. -/
def Ends (rest : List Char) : Prop :=
  ∀ c, rest.head? = some c → isSpace c ∨ c = ',' ∨ c = ']' ∨ c = '}'

/-- A text starts like a value: not with a space, and not like the end of a container. -/
def Starts (cs : List Char) : Prop :=
  ∃ c rest, cs = c :: rest ∧ isSpace c = false ∧ c ≠ ']' ∧ c ≠ '}'

theorem ends_cons {c : Char} (h : c = ',' ∨ c = ']' ∨ c = '}') (rest : List Char) :
    Ends (c :: rest) := by
  intro c' hc'
  obtain rfl := Option.some.inj hc'
  exact Or.inr h

theorem Spaces.ends {ws rest : List Char} (h : Spaces ws) (hrest : Ends rest) :
    Ends (ws ++ rest) := by
  cases ws with
  | nil => exact hrest
  | cons c ws =>
      intro c' hc'
      obtain rfl := Option.some.inj hc'
      exact Or.inl (h c List.mem_cons_self)

/-! ## Tokens -/

theorem nextToken_append {ws : List Char} (hws : Spaces ws) {c : Char} (hc : isSpace c = false)
    (rest : List Char) : ∃ h, nextToken (ws ++ c :: rest) = some (c, ⟨rest, h⟩) := by
  induction ws with
  | nil =>
      refine ⟨Nat.lt_succ_self _, ?_⟩
      show nextToken (c :: rest) = _
      rw [nextToken, if_neg (by simp [hc])]
      rfl
  | cons w ws ih =>
      obtain ⟨hw, hws⟩ := List.forall_mem_cons.mp hws
      obtain ⟨h, ih⟩ := ih hws
      refine ⟨Nat.lt_trans h (Nat.lt_succ_self _), ?_⟩
      show nextToken (w :: (ws ++ c :: rest)) = _
      rw [nextToken, if_pos hw, ih]
      rfl

theorem nextToken_spaces {ws : List Char} (hws : Spaces ws) : nextToken ws = none := by
  induction ws with
  | nil => rfl
  | cons w ws ih =>
      obtain ⟨hw, hws⟩ := List.forall_mem_cons.mp hws
      rw [nextToken, if_pos hw, ih hws]
      rfl

theorem readColon_append {ws : List Char} (hws : Spaces ws) (rest : List Char) :
    ∃ h, readColon (ws ++ ':' :: rest) = .ok ⟨rest, h⟩ := by
  obtain ⟨h, htoken⟩ := nextToken_append hws (c := ':') rfl rest
  refine ⟨h, ?_⟩
  simp only [readColon, htoken]

theorem readWord_append (word rest : List Char) :
    ∃ h, readWord word (word ++ rest) = .ok ⟨rest, h⟩ := by
  induction word with
  | nil => exact ⟨Nat.le_refl _, rfl⟩
  | cons w word ih =>
      obtain ⟨h, ih⟩ := ih
      refine ⟨Nat.le_trans h (Nat.le_succ _), ?_⟩
      show readWord (w :: word) (w :: (word ++ rest)) = _
      rw [readWord, if_pos rfl, ih]
      rfl

/-- A value that is a single word, which is told by its first letter. -/
theorem takes_word {r : Reader α} {a : α} {c : Char} {word ws : List Char} (hc : isSpace c = false)
    (hstart : ∀ cs (rest : Rest cs), nextToken cs = some (c, rest) → r cs = do
      let inner ← readWord word rest.val
      .ok (a, rest.before inner)) (hws : Spaces ws) (rest : List Char) :
    Takes r (ws ++ (c :: word ++ rest)) a rest := by
  obtain ⟨hlt, htoken⟩ := nextToken_append hws hc (word ++ rest)
  obtain ⟨hle, hword⟩ := readWord_append word rest
  refine ⟨Nat.lt_of_le_of_lt hle hlt, ?_⟩
  show r (ws ++ c :: (word ++ rest)) = _
  rw [hstart _ _ htoken, hword]
  rfl

/-! ## Strings -/

theorem hexDigit?_of_hexDigit {d : Nat} {c : Char} (h : HexDigit d c) : hexDigit? c = some d := by
  have hall : ∀ d < 16, hexDigit? (Nat.digitChar d) = some d
      ∧ hexDigit? (Nat.digitChar d).toUpper = some d := by decide
  obtain ⟨hd, rfl | rfl⟩ := h
  · exact (hall d hd).1
  · exact (hall d hd).2

theorem UnitForm.takes {n : Nat} {cs : List Char} (h : UnitForm n cs) (rest : List Char) :
    Takes readUnit (cs ++ rest) n rest := by
  cases h with
  | digits h₁ h₂ h₃ h₄ =>
      refine ⟨by simp only [List.length_append, List.length_cons]; omega, ?_⟩
      simp only [List.cons_append, List.nil_append, readUnit, hexDigit?_of_hexDigit h₁,
        hexDigit?_of_hexDigit h₂, hexDigit?_of_hexDigit h₃, hexDigit?_of_hexDigit h₄]

theorem simpleEscape?_of_mem {e c : Char} (h : (e, c) ∈ letterEscapes) :
    simpleEscape? e = some c ∧ e ≠ 'u' := by
  have hall : ∀ p ∈ letterEscapes, simpleEscape? p.1 = some p.2 ∧ p.1 ≠ 'u' := by decide
  exact hall _ h

theorem toNat_not_surrogate (c : Char) : c.toNat < 0xD800 ∨ 0xDFFF < c.toNat ∧ c.toNat < 0x110000 :=
  c.valid

theorem takes_readUnicode_unit {c : Char} {cs : List Char} (h : UnitForm c.toNat cs)
    (rest : List Char) : Takes readUnicode (cs ++ rest) c rest := by
  obtain ⟨hlt, hunit⟩ := h.takes rest
  have hlow : isLowSurrogate c.toNat = false := by
    have := toNat_not_surrogate c
    simp only [isLowSurrogate, Bool.and_eq_false_iff, decide_eq_false_iff_not]
    omega
  have hhigh : isHighSurrogate c.toNat = false := by
    have := toNat_not_surrogate c
    simp only [isHighSurrogate, Bool.and_eq_false_iff, decide_eq_false_iff_not]
    omega
  refine ⟨hlt, ?_⟩
  simp [readUnicode, hunit, bind_ok, hlow, hhigh, Char.ofNat_toNat]

theorem pairedChar_eq {c : Char} {a b : Nat} (value : c.toNat = 0x10000 + a * 0x400 + b) :
    pairedChar (0xD800 + a) (0xDC00 + b) = c := by
  rw [pairedChar, Nat.add_sub_cancel_left, Nat.add_sub_cancel_left, ← value, Char.ofNat_toNat]

theorem isHighSurrogate_add {a : Nat} (h : a < 0x400) :
    isHighSurrogate (0xD800 + a) = true ∧ isLowSurrogate (0xD800 + a) = false := by
  simp only [isHighSurrogate, isLowSurrogate, Bool.and_eq_true, Bool.and_eq_false_iff,
    decide_eq_true_eq, decide_eq_false_iff_not]
  omega

theorem isLowSurrogate_add {b : Nat} (h : b < 0x400) : isLowSurrogate (0xDC00 + b) = true := by
  simp only [isLowSurrogate, Bool.and_eq_true, decide_eq_true_eq]
  omega

theorem takes_readUnicode_pair {c : Char} {a b : Nat} {high low : List Char} (ha : a < 0x400)
    (hb : b < 0x400) (value : c.toNat = 0x10000 + a * 0x400 + b)
    (hhigh : UnitForm (0xD800 + a) high) (hlow : UnitForm (0xDC00 + b) low) (rest : List Char) :
    Takes readUnicode (high ++ '\\' :: 'u' :: (low ++ rest)) c rest := by
  obtain ⟨_, hunit⟩ := hhigh.takes ('\\' :: 'u' :: (low ++ rest))
  obtain ⟨_, hunit'⟩ := hlow.takes rest
  obtain ⟨hisHigh, hnotLow⟩ := isHighSurrogate_add ha
  refine ⟨by simp only [List.length_append, List.length_cons] at *; omega, ?_⟩
  rw [readUnicode, hunit, bind_ok]
  simp only [hnotLow, hisHigh, readLowSurrogate, hunit', bind_ok, isLowSurrogate_add hb,
    pairedChar_eq value]
  rfl

theorem readStringChar_backslash {β : Type} {escape : Reader β} {plain : Char → β}
    {cs rest : List Char} {b : β} (h : Takes escape cs b rest) :
    Takes (readStringChar escape plain) ('\\' :: cs) (some b) rest := by
  obtain ⟨hlt, h⟩ := h
  refine ⟨Nat.lt_succ_of_lt hlt, ?_⟩
  simp only [readStringChar, h, bind_ok]
  rfl

theorem readStringChar_plain {β : Type} {escape : Reader β} {plain : Char → β} {c : Char}
    (h : IsPlain c) (rest : List Char) :
    Takes (readStringChar escape plain) (c :: rest) (some (plain c)) rest := by
  obtain ⟨hquote, hbackslash, hprintable⟩ := h
  refine ⟨Nat.lt_succ_self _, ?_⟩
  rw [readStringChar, if_neg (by omega)]
  · rfl
  · exact hquote
  · exact hbackslash

theorem readEscape_unicode {cs rest : List Char} {c : Char} (h : Takes readUnicode cs c rest) :
    Takes readEscape ('u' :: cs) c rest := by
  obtain ⟨hlt, h⟩ := h
  refine ⟨Nat.lt_succ_of_lt hlt, ?_⟩
  simp only [readEscape, h, bind_ok]
  rfl

theorem readEscape_letter {e c : Char} (h : (e, c) ∈ letterEscapes) (rest : List Char) :
    Takes readEscape (e :: rest) c rest := by
  obtain ⟨hsimple, hu⟩ := simpleEscape?_of_mem h
  refine ⟨Nat.lt_succ_self _, ?_⟩
  rw [readEscape, hsimple]
  · rfl
  · exact hu

/-- Every form of a character is read as this character. -/
theorem CharForm.takes {c : Char} {form : List Char} (h : CharForm c form) (rest : List Char) :
    Takes (readStringChar readEscape id) (form ++ rest) (some c) rest := by
  cases h with
  | plain h => exact readStringChar_plain h rest
  | letter h => exact readStringChar_backslash (readEscape_letter h rest)
  | unit h =>
      exact readStringChar_backslash (readEscape_unicode (takes_readUnicode_unit h rest))
  | pair ha hb value hhigh hlow =>
      have hread := readEscape_unicode (takes_readUnicode_pair ha hb value hhigh hlow rest)
      simpa [List.append_assoc] using readStringChar_backslash hread

theorem readStringChar_quote {β : Type} (escape : Reader β) (plain : Char → β)
    (rest : List Char) : Takes (readStringChar escape plain) ('"' :: rest) none rest :=
  ⟨Nat.lt_succ_self _, rfl⟩

theorem readChars_cons {c : Char} {acc cs rest : List Char}
    (h : Takes (readStringChar readEscape id) cs (some c) rest) :
    readChars acc cs = readChars (c :: acc) rest := by
  obtain ⟨_, h⟩ := h
  rw [readChars, h]

theorem readChars_quote (acc rest : List Char) :
    readChars acc ('"' :: rest) = .ok (acc.reverse, rest) := by
  obtain ⟨_, h⟩ := readStringChar_quote readEscape id rest
  rw [readChars, h]

theorem CharsForm.readChars {chars forms : List Char} (h : CharsForm chars forms)
    (acc rest : List Char) :
    Json.readChars acc (forms ++ '"' :: rest) = .ok (acc.reverse ++ chars, rest) := by
  induction h generalizing acc with
  | nil => rw [List.nil_append, readChars_quote, List.append_nil]
  | cons head tail ih =>
      rw [List.append_assoc, readChars_cons (head.takes _), ih, List.reverse_cons,
        List.append_assoc]
      rfl

/-- Every form of a string is read as this string. -/
theorem takes_readString {s : String} {forms : List Char} (h : CharsForm s.toList forms)
    (rest : List Char) : Takes readString (forms ++ '"' :: rest) s rest := by
  have hchars := h.readChars [] rest
  refine ⟨readChars_shrinks _ _ hchars, ?_⟩
  rw [readString]
  split
  · rename_i e herror
    rw [hchars] at herror
    cases herror
  · rename_i chars rest' hok
    rw [hchars] at hok
    obtain ⟨rfl, rfl⟩ := Prod.mk.inj (Except.ok.inj hok)
    simp

/-! ## Strings that do not matter -/

theorem skipEscape_letter {e c : Char} (h : (e, c) ∈ letterEscapes) (rest : List Char) :
    Takes skipEscape (e :: rest) () rest := by
  obtain ⟨hsimple, hu⟩ := simpleEscape?_of_mem h
  refine ⟨Nat.lt_succ_self _, ?_⟩
  rw [skipEscape, hsimple]
  · rfl
  · exact hu

theorem skipEscape_unit {n : Nat} {cs rest : List Char} (h : Takes readUnit cs n rest) :
    Takes skipEscape ('u' :: cs) () rest := by
  obtain ⟨hlt, h⟩ := h
  refine ⟨Nat.lt_succ_of_lt hlt, ?_⟩
  simp only [skipEscape, h, bind_ok]
  rfl

theorem dropString_cons {cs rest : List Char}
    (h : Takes (readStringChar skipEscape fun _ => ()) cs (some ()) rest) :
    dropString cs = dropString rest := by
  obtain ⟨_, h⟩ := h
  rw [dropString, h]

theorem IsChars.dropString {chars : List Char} (h : IsChars chars) (rest : List Char) :
    Json.dropString (chars ++ '"' :: rest) = .ok rest := by
  induction h with
  | nil =>
      obtain ⟨_, h⟩ := readStringChar_quote skipEscape (fun _ => ()) rest
      rw [List.nil_append, Json.dropString, h]
  | plain h _ ih => rw [List.cons_append, dropString_cons (readStringChar_plain h _), ih]
  | letter h _ ih =>
      exact (dropString_cons (readStringChar_backslash (skipEscape_letter h _))).trans ih
  | @unit n form cs h _ ih =>
      have hunit := skipEscape_unit (h.takes (cs ++ '"' :: rest))
      rw [List.cons_append, List.cons_append, List.append_assoc,
        dropString_cons (readStringChar_backslash hunit), ih]

theorem skipString_append {chars : List Char} (h : IsChars chars) (rest : List Char) :
    ∃ hlt, skipString (chars ++ '"' :: rest) = .ok ⟨rest, hlt⟩ := by
  have hdrop := h.dropString rest
  refine ⟨dropString_shrinks _ hdrop, ?_⟩
  rw [skipString]
  split
  · rename_i e herror
    rw [hdrop] at herror
    cases herror
  · rename_i rest' hok
    rw [hdrop] at hok
    obtain rfl := Except.ok.inj hok
    rfl

end CurriedTypings.Json
