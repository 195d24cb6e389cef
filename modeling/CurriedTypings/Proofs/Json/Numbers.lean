import CurriedTypings.Json.Typed
import CurriedTypings.Proofs.Json.Tokens

/-!
# Taking numbers off a document

A number ends where no further character can belong to it, and no character that may follow
a value can (`Ends.not_number`). So its parts are read as they are written: the integer part
up to a point or a letter, the fraction up to a letter, the exponent up to the end
(`takes_readNumeral`). A natural number that fits its range is read as its value
(`takes_natural`).
-/

namespace CurriedTypings.Json

variable {atEnd : Error} {rest : List Char}

/-- What cannot go on a run of digits. -/
def EndsDigits (rest : List Char) : Prop := ∀ c, rest.head? = some c → c.isDigit = false

theorem Ends.not_number (h : Ends rest) {c : Char} (hc : rest.head? = some c) :
    c.isDigit = false ∧ c ≠ '.' ∧ c ≠ 'e' ∧ c ≠ 'E' := by
  have hends := h c hc
  simp only [isSpace, Bool.or_eq_true, decide_eq_true_eq] at hends
  obtain (((rfl | rfl) | rfl) | rfl) | rfl | rfl | rfl := hends <;> decide

theorem Ends.endsDigits (h : Ends rest) : EndsDigits rest := fun _ hc => (h.not_number hc).1

/-! ## Digits -/

theorem takeDigits_append {ds : List Char} (hds : ∀ c ∈ ds, c.isDigit) (hrest : EndsDigits rest) :
    ∃ h, takeDigits (ds ++ rest) = (ds, ⟨rest, h⟩) := by
  induction ds with
  | nil =>
      refine ⟨Nat.le_refl _, ?_⟩
      show takeDigits rest = _
      cases rest with
      | nil => rfl
      | cons c rest => exact if_neg (by simp [hrest c rfl])
  | cons d ds ih =>
      obtain ⟨hd, hds⟩ := List.forall_mem_cons.mp hds
      obtain ⟨h, ih⟩ := ih hds
      refine ⟨Nat.le_trans h (Nat.le_succ _), ?_⟩
      show takeDigits (d :: (ds ++ rest)) = _
      refine (if_pos hd).trans ?_
      rw [ih]

theorem takes_readDigits {ds : List Char} (h : IsDigits ds) (hrest : EndsDigits rest) :
    Takes (readDigits atEnd) (ds ++ rest) ds rest := by
  obtain ⟨hne, hds⟩ := h
  cases ds with
  | nil => exact absurd rfl hne
  | cons d ds =>
      obtain ⟨hd, hds⟩ := List.forall_mem_cons.mp hds
      obtain ⟨hle, htake⟩ := takeDigits_append hds hrest
      refine ⟨Nat.lt_succ_of_le hle, ?_⟩
      simp only [List.cons_append, readDigits, if_pos hd, htake]
      rfl

theorem takes_readInteger {ds : List Char} (h : IsInteger ds) (hrest : EndsDigits rest) :
    Takes (readInteger atEnd) (ds ++ rest) ds rest := by
  obtain ⟨hdigits, hzero⟩ := h
  by_cases hhead : ds.head? = some '0'
  · obtain rfl := hzero hhead
    refine ⟨Nat.lt_succ_self _, ?_⟩
    cases rest with
    | nil => rfl
    | cons c rest =>
        simp only [List.cons_append, List.nil_append, readInteger, hrest c rfl]
        rfl
  · have hread : readInteger atEnd (ds ++ rest) = readDigits atEnd (ds ++ rest) := by
      cases ds with
      | nil => exact absurd rfl hdigits.1
      | cons d ds =>
          show readInteger atEnd (d :: (ds ++ rest)) = _
          rw [readInteger]
          · rfl
          · rintro cs heq
            obtain ⟨rfl, -⟩ := List.cons.inj heq
            exact hhead rfl
    rw [Takes, hread]
    exact takes_readDigits hdigits hrest

/-! ## Numerals -/

theorem takes_readFraction {fraction : List Char} (h : IsFraction fraction)
    (hrest : ∀ c, rest.head? = some c → c.isDigit = false ∧ c ≠ '.') :
    ∃ digits hle, readFraction atEnd (fraction ++ rest) = .ok (digits, ⟨rest, hle⟩)
      ∧ (fraction = [] → digits = none) := by
  obtain rfl | ⟨digits, hdigits, rfl⟩ := h
  · refine ⟨none, Nat.le_refl _, ?_, fun _ => rfl⟩
    show readFraction atEnd rest = _
    cases rest with
    | nil => rfl
    | cons c rest =>
        rw [readFraction]
        · rfl
        · rintro cs heq
          obtain ⟨rfl, -⟩ := List.cons.inj heq
          exact (hrest '.' rfl).2 rfl
  · obtain ⟨hlt, hread⟩ : Takes (readDigits atEnd) (digits ++ rest) digits rest :=
      takes_readDigits hdigits fun c hc => (hrest c hc).1
    refine ⟨some digits, Nat.le_of_lt (Nat.lt_succ_of_lt hlt), ?_, nofun⟩
    simp only [List.cons_append, readFraction, hread, bind_ok]
    rfl

theorem takeSign_digits {digits : List Char} (h : IsDigits digits) (rest : List Char) :
    takeSign (digits ++ rest) = (false, .all (digits ++ rest)) := by
  obtain ⟨hne, hdigits⟩ := h
  cases digits with
  | nil => exact absurd rfl hne
  | cons d digits =>
      have hd := hdigits d List.mem_cons_self
      show takeSign (d :: (digits ++ rest)) = _
      rw [takeSign]
      · rfl
      · rintro cs heq
        obtain ⟨rfl, -⟩ := List.cons.inj heq
        exact absurd hd (by decide)
      · rintro cs heq
        obtain ⟨rfl, -⟩ := List.cons.inj heq
        exact absurd hd (by decide)

theorem takes_readSigned_of_takeSign {cs digits : List Char} {down : Bool} {r : Remaining cs}
    (hsign : takeSign cs = (down, r)) (hread : Takes (readDigits atEnd) r.val digits rest) :
    Takes (readSigned atEnd) cs (down, digits) rest := by
  obtain ⟨hlt, hread⟩ := hread
  refine ⟨Nat.lt_of_lt_of_le hlt r.property, ?_⟩
  rw [readSigned, hsign]
  simp only [hread, bind_ok]
  rfl

theorem takes_readSigned {sign digits : List Char} (hsign : sign = [] ∨ sign = ['+'] ∨ sign = ['-'])
    (hdigits : IsDigits digits) (hrest : EndsDigits rest) :
    ∃ down, Takes (readSigned atEnd) (sign ++ (digits ++ rest)) (down, digits) rest := by
  obtain rfl | rfl | rfl := hsign
  · exact ⟨false, takes_readSigned_of_takeSign (takeSign_digits hdigits rest)
      (takes_readDigits hdigits hrest)⟩
  · exact ⟨false, takes_readSigned_of_takeSign rfl (takes_readDigits hdigits hrest)⟩
  · exact ⟨true, takes_readSigned_of_takeSign rfl (takes_readDigits hdigits hrest)⟩

theorem takes_readExponent {exponent : List Char} (h : IsExponent exponent) (hrest : Ends rest) :
    ∃ parts hle, readExponent atEnd (exponent ++ rest) = .ok (parts, ⟨rest, hle⟩)
      ∧ (exponent = [] → parts = none) := by
  obtain rfl | ⟨e, sign, digits, he, hsign, hdigits, rfl⟩ := h
  · refine ⟨none, Nat.le_refl _, ?_, fun _ => rfl⟩
    show readExponent atEnd rest = _
    cases rest with
    | nil => rfl
    | cons c rest =>
        obtain ⟨-, -, hne, hne'⟩ := hrest.not_number rfl
        rw [readExponent, if_neg (by simp [hne, hne'])]
        rfl
  · obtain ⟨down, hlt, hread⟩ : ∃ down,
        Takes (readSigned atEnd) (sign ++ (digits ++ rest)) (down, digits) rest :=
      takes_readSigned hsign hdigits hrest.endsDigits
    have hshape : e :: (sign ++ digits) ++ rest = e :: (sign ++ (digits ++ rest)) := by simp
    rw [hshape]
    refine ⟨some (down, digits), Nat.le_of_lt (Nat.lt_succ_of_lt hlt), ?_, nofun⟩
    rw [readExponent, if_pos (by simpa using he), hread, bind_ok]
    rfl

theorem IsExponent.head {exponent : List Char} (h : IsExponent exponent) (hrest : Ends rest)
    {c : Char} (hc : (exponent ++ rest).head? = some c) : c.isDigit = false ∧ c ≠ '.' := by
  obtain rfl | ⟨e, sign, digits, he, -, -, rfl⟩ := h
  · obtain ⟨hdigit, hpoint, -⟩ := hrest.not_number hc
    exact ⟨hdigit, hpoint⟩
  · obtain rfl := Option.some.inj hc
    obtain rfl | rfl := he <;> decide

theorem IsFraction.head {fraction : List Char} (h : IsFraction fraction)
    (hrest : EndsDigits rest) : EndsDigits (fraction ++ rest) := by
  obtain rfl | ⟨digits, -, rfl⟩ := h
  · exact hrest
  · intro c hc
    obtain rfl := Option.some.inj hc
    decide

/-- The parts of a numeral are read as they are written. -/
theorem takes_readNumeral {integer fraction exponent : List Char} (hinteger : IsInteger integer)
    (hfraction : IsFraction fraction) (hexponent : IsExponent exponent) (hrest : Ends rest) :
    ∃ numeral, Takes (readNumeral atEnd) (integer ++ (fraction ++ (exponent ++ rest))) numeral rest
      ∧ numeral.integer = integer ∧ (fraction = [] → numeral.fraction = none)
      ∧ (exponent = [] → numeral.exponent = none) := by
  have hends : EndsDigits (exponent ++ rest) := fun c hc => (hexponent.head hrest hc).1
  obtain ⟨hlt, hread⟩ : Takes (readInteger atEnd) (integer ++ (fraction ++ (exponent ++ rest)))
      integer (fraction ++ (exponent ++ rest)) :=
    takes_readInteger hinteger (hfraction.head hends)
  obtain ⟨digits, hle, hread₁, hnone₁⟩ :=
    @takes_readFraction atEnd _ fraction hfraction fun c hc => hexponent.head hrest hc
  obtain ⟨parts, hle', hread₂, hnone₂⟩ := @takes_readExponent atEnd _ exponent hexponent hrest
  refine ⟨⟨integer, digits, parts⟩, ⟨by omega, ?_⟩, rfl, hnone₁, hnone₂⟩
  simp only [readNumeral, hread, bind_ok, hread₁, hread₂]
  rfl

theorem takes_skipNumber {cs : List Char} (h : IsNumeral cs) (hrest : Ends rest) :
    ∃ hlt, skipNumber (cs ++ rest) = .ok ⟨rest, hlt⟩ := by
  obtain ⟨integer, fraction, exponent, hinteger, hfraction, hexponent, rfl⟩ := h
  obtain ⟨numeral, ⟨hlt, hread⟩, -⟩ :=
    @takes_readNumeral .invalidNumber _ _ _ _ hinteger hfraction hexponent hrest
  rw [List.append_assoc, List.append_assoc]
  refine ⟨hlt, ?_⟩
  simp only [skipNumber, hread, bind_ok]

/-! ## Natural numbers -/

theorem le_foldl_value (n : Nat) (ds : List Char) :
    n ≤ ds.foldl (fun n c => n * 10 + (c.toNat - '0'.toNat)) n := by
  induction ds generalizing n with
  | nil => exact Nat.le_refl n
  | cons d ds ih =>
      have hle : n ≤ n * 10 + (d.toNat - '0'.toNat) := by omega
      exact Nat.le_trans hle (ih _)

theorem gather_eq {limit n : Nat} {ds : List Char}
    (h : ds.foldl (fun n c => n * 10 + (c.toNat - '0'.toNat)) n ≤ limit) :
    gather limit n ds = (ds.foldl (fun n c => n * 10 + (c.toNat - '0'.toNat)) n, []) := by
  induction ds generalizing n with
  | nil => rfl
  | cons d ds ih =>
      rw [List.foldl_cons] at h
      have hle : n * 10 + (d.toNat - '0'.toNat) ≤ limit := Nat.le_trans (le_foldl_value _ _) h
      simp only [gather, digitValue, if_neg (Nat.not_lt.mpr hle), ih h, List.foldl_cons]

theorem takes_readNumber {n : Nat} {ds : List Char} (h : NaturalForm n ds) (hn : n < Nat.pow 2 64)
    (hrest : Ends rest) : Takes (readNumber false) (ds ++ rest) (.integer n) rest := by
  obtain ⟨hinteger, hvalue⟩ := h
  obtain ⟨⟨integer, fraction, exponent⟩, ⟨hlt, hread⟩, hparts⟩ :=
    @takes_readNumeral .eofInValue _ _ _ _ hinteger (Or.inl rfl) (Or.inl rfl) hrest
  simp only [List.nil_append] at hlt hread
  obtain ⟨rfl, hfraction, hexponent⟩ := hparts
  obtain rfl := hfraction rfl
  obtain rfl := hexponent rfl
  have hle : ArityKey.value integer ≤ maxSignificand := hvalue ▸ Nat.le_sub_one_of_lt hn
  have hgather : gather maxSignificand 0 integer = (n, []) :=
    (gather_eq hle).trans (congrArg (·, []) hvalue)
  refine ⟨hlt, ?_⟩
  simp only [readNumber, hread, bind_ok, Numeral.value, hgather]
  rfl

theorem isSpace_of_isDigit {c : Char} (h : c.isDigit) : isSpace c = false := by
  by_contra hspace
  simp only [isSpace, Bool.not_eq_false, Bool.or_eq_true, decide_eq_true_eq] at hspace
  obtain ((rfl | rfl) | rfl) | rfl := hspace <;> exact absurd h (by decide)

theorem takes_natural {range : NaturalRange} (hlimit : range.limit ≤ Nat.pow 2 64) {n : Nat}
    {ds ws : List Char} (h : NaturalForm n ds) (hn : n < range.limit) (hws : Spaces ws)
    (hrest : Ends rest) : Takes (natural range) (ws ++ (ds ++ rest)) n rest := by
  obtain ⟨hlt, hread⟩ := takes_readNumber h (Nat.lt_of_lt_of_le hn hlimit) hrest
  obtain ⟨⟨⟨hne, hdigits⟩, -⟩, -⟩ := h
  cases ds with
  | nil => exact absurd rfl hne
  | cons d ds =>
      have hd := hdigits d List.mem_cons_self
      obtain ⟨_, htoken⟩ := nextToken_append hws (isSpace_of_isDigit hd) (ds ++ rest)
      have hdash : d ≠ '-' := by
        rintro rfl
        exact absurd hd (by decide)
      have hcheck : range.check (.integer n) = .ok n := by
        rw [NaturalRange.check, if_pos (by simpa using hn)]
        rfl
      refine ⟨?_, ?_⟩
      · simp only [List.length_append, List.length_cons] at hlt ⊢
        omega
      · show natural range (ws ++ d :: (ds ++ rest)) = _
        change readNumber false (d :: (ds ++ rest)) = _ at hread
        simp only [natural, htoken, if_neg hdash, if_pos hd, hread, bind_ok, hcheck]
        rfl

end CurriedTypings.Json
