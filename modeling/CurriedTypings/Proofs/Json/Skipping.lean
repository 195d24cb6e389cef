import CurriedTypings.Proofs.Json.Numbers

/-!
# Skipping any value

A value that nobody asked for is walked through with a list of the containers that are open.
Wherever such a walk comes upon a value, it goes on behind it in the same containers
(`Skips`). The proof is by induction on the value: the items of a list and the members of an
object are walked through one after the other, each of them by the induction hypothesis.
-/

namespace CurriedTypings.Json

/-- What remains to be done of a walk, done. -/
def resume : Pending → List Char → Except Error (List Char)
  | none, rest => .ok rest
  | some (awaiting, containers), rest => dropValue awaiting containers rest

theorem dropValue_of_takes {awaiting : Awaiting} {containers : List Container} {p : Pending}
    {cs rest : List Char} (h : Takes (skipStep awaiting containers) cs p rest) :
    dropValue awaiting containers cs = resume p rest := by
  obtain ⟨_, h⟩ := h
  rw [dropValue, h]
  rcases p with _ | ⟨awaiting, containers⟩ <;> rfl

/-- A walk passes this value, whatever containers it stands in. -/
def Skips (v : List Char) : Prop :=
  ∀ (containers : List Container) (ws rest : List Char), Spaces ws → Ends rest →
    dropValue .value containers (ws ++ (v ++ rest)) = resume (ended containers) rest

theorem skips_of_takes {v : List Char} (h : ∀ containers ws rest, Spaces ws → Ends rest →
    Takes (skipStart containers) (ws ++ (v ++ rest)) (ended containers) rest) : Skips v :=
  fun containers ws rest hws hrest => dropValue_of_takes (h containers ws rest hws hrest)

/-! ## Words, numbers and strings -/

theorem skips_word {v : List Char} (h : v ∈ ["null".toList, "true".toList, "false".toList]) :
    Skips v := by
  refine skips_of_takes fun containers ws rest hws _ => ?_
  simp only [List.mem_cons, List.not_mem_nil, or_false] at h
  obtain rfl | rfl | rfl := h
  · refine @takes_word _ _ _ 'n' ['u', 'l', 'l'] ws rfl (fun cs tail htoken => ?_) hws rest
    simp only [skipStart, htoken]
    rfl
  · refine @takes_word _ _ _ 't' ['r', 'u', 'e'] ws rfl (fun cs tail htoken => ?_) hws rest
    simp only [skipStart, htoken]
    rfl
  · refine @takes_word _ _ _ 'f' ['a', 'l', 's', 'e'] ws rfl (fun cs tail htoken => ?_) hws rest
    simp only [skipStart, htoken]
    rfl

theorem skips_string {v : List Char} (h : IsString v) : Skips v := by
  obtain ⟨chars, hchars, rfl⟩ := h
  refine skips_of_takes fun containers ws rest hws _ => ?_
  have hshape : '"' :: (chars ++ ['"']) ++ rest = '"' :: (chars ++ '"' :: rest) := by simp
  rw [hshape]
  obtain ⟨hlt, htoken⟩ := nextToken_append hws (c := '"') rfl (chars ++ '"' :: rest)
  obtain ⟨hlt', hskip⟩ := skipString_append hchars rest
  refine ⟨Nat.lt_trans hlt' hlt, ?_⟩
  simp only [skipStart, htoken, hskip, bind_ok]
  rfl

theorem IsNumeral.head {v : List Char} (h : IsNumeral v) : ∃ d tail, v = d :: tail ∧ d.isDigit := by
  obtain ⟨integer, fraction, exponent, ⟨⟨hne, hdigits⟩, -⟩, -, -, rfl⟩ := h
  cases integer with
  | nil => exact absurd rfl hne
  | cons d integer => exact ⟨d, _, rfl, hdigits d List.mem_cons_self⟩

theorem skips_number {v : List Char} (h : IsNumber v) : Skips v := by
  refine skips_of_takes fun containers ws rest hws hrest => ?_
  obtain hnumeral | ⟨numeral, hnumeral, rfl⟩ := h
  · obtain ⟨hlt', hskip⟩ := takes_skipNumber hnumeral hrest
    obtain ⟨d, tail, rfl, hd⟩ := hnumeral.head
    obtain ⟨hlt, htoken⟩ := nextToken_append hws (isSpace_of_isDigit hd) (tail ++ rest)
    have hne : d ≠ 'n' ∧ d ≠ 't' ∧ d ≠ 'f' ∧ d ≠ '-' ∧ d ≠ '"' ∧ d ≠ '[' ∧ d ≠ '{' := by
      refine ⟨?_, ?_, ?_, ?_, ?_, ?_, ?_⟩ <;> (rintro rfl; exact absurd hd (by decide))
    obtain ⟨hn, ht, hf, hdash, hquote, hbracket, hbrace⟩ := hne
    change skipNumber (d :: (tail ++ rest)) = _ at hskip
    refine ⟨?_, ?_⟩
    · exact Nat.lt_of_lt_of_le hlt' (by simp)
    · show skipStart containers (ws ++ d :: (tail ++ rest)) = _
      simp only [skipStart, htoken, if_neg hn, if_neg ht, if_neg hf, if_neg hdash, if_neg hquote,
        if_neg hbracket, if_neg hbrace, if_pos hd, hskip, bind_ok]
      rfl
  · obtain ⟨hlt, htoken⟩ := nextToken_append hws (c := '-') rfl (numeral ++ rest)
    obtain ⟨hlt', hskip⟩ := takes_skipNumber hnumeral hrest
    refine ⟨Nat.lt_trans hlt' hlt, ?_⟩
    show skipStart containers (ws ++ '-' :: (numeral ++ rest)) = _
    simp only [skipStart, htoken, hskip, bind_ok]
    rfl

/-! ## Where a value starts -/

theorem starts_of_isDigit {c : Char} (h : c.isDigit) (cs : List Char) : Starts (c :: cs) := by
  refine ⟨c, cs, rfl, isSpace_of_isDigit h, ?_, ?_⟩
  · rintro rfl
    exact absurd h (by decide)
  · rintro rfl
    exact absurd h (by decide)

theorem Enclosed.starts {β : Type} {item : β → List Char → Prop} {opening closing : Char}
    {bs : List β} {cs : List Char} (h : Enclosed item opening closing bs cs)
    (hopening : isSpace opening = false ∧ opening ≠ ']' ∧ opening ≠ '}') : Starts cs := by
  cases h with
  | empty h => exact ⟨opening, _, rfl, hopening⟩
  | full h => exact ⟨opening, _, rfl, hopening⟩

theorem IsValue.starts {v : List Char} (h : IsValue v) : Starts v := by
  cases h with
  | word h =>
      simp only [List.mem_cons, List.not_mem_nil, or_false] at h
      obtain rfl | rfl | rfl := h
      · exact ⟨'n', _, rfl, by decide⟩
      · exact ⟨'t', _, rfl, by decide⟩
      · exact ⟨'f', _, rfl, by decide⟩
  | number h =>
      obtain hnumeral | ⟨numeral, -, rfl⟩ := h
      · obtain ⟨d, tail, rfl, hd⟩ := hnumeral.head
        exact starts_of_isDigit hd tail
      · exact ⟨'-', _, rfl, by decide⟩
  | string h =>
      obtain ⟨chars, -, rfl⟩ := h
      exact ⟨'"', _, rfl, by decide⟩
  | list _ h => exact Enclosed.starts h (by decide)
  | object _ _ h => exact Enclosed.starts h (by decide)

/-- The first item of a listing that starts like a value. -/
theorem Listing.nextToken {β : Type} {item : β → List Char → Prop} {bs : List β}
    {body : List Char} (h : Listing item bs body) (hstarts : ∀ b ∈ bs, ∀ cs, item b cs → Starts cs)
    (rest : List Char) :
    ∃ c tail, Json.nextToken (body ++ rest) = some (c, tail) ∧ c ≠ ']' ∧ c ≠ '}' := by
  have hpadded : ∀ b ∈ bs, ∀ cs, Padded item b cs → ∀ rest,
      ∃ c tail, Json.nextToken (cs ++ rest) = some (c, tail) ∧ c ≠ ']' ∧ c ≠ '}' := by
    rintro b hb cs ⟨before, form, after, hbefore, hitem, -, rfl⟩ rest
    obtain ⟨c, tail, rfl, hspace, hends⟩ := hstarts b hb form hitem
    obtain ⟨hlt, htoken⟩ := nextToken_append hbefore hspace (tail ++ (after ++ rest))
    have hshape : before ++ c :: tail ++ after ++ rest = before ++ c :: (tail ++ (after ++ rest)) := by
      simp
    rw [hshape]
    exact ⟨c, _, htoken, hends⟩
  cases h with
  | last h => exact hpadded _ List.mem_cons_self _ h rest
  | @cons b bs cs tail h _ =>
      have hshape : cs ++ ',' :: tail ++ rest = cs ++ ',' :: (tail ++ rest) := by simp
      rw [hshape]
      exact hpadded b List.mem_cons_self cs h (',' :: (tail ++ rest))

/-! ## Where a container starts and ends -/

def Container.opening : Container → Char
  | .list => '['
  | .object => '{'

def Container.closing : Container → Char
  | .list => ']'
  | .object => '}'

theorem Container.not_space (c : Container) :
    isSpace c.opening = false ∧ isSpace c.closing = false := by
  cases c <;> exact ⟨rfl, rfl⟩

theorem takes_closing {after : List Char} (h : Spaces after) (c : Container)
    (containers : List Container) (rest : List Char) :
    Takes (skipStep .separator (c :: containers)) (after ++ c.closing :: rest) (ended containers)
      rest := by
  obtain ⟨hlt, htoken⟩ := nextToken_append h c.not_space.2 rest
  refine ⟨hlt, ?_⟩
  simp only [skipStep, skipSeparator, htoken]
  cases c <;> rfl

/-- What follows its first character decides how the walk goes on in a container. -/
theorem takes_opening {c : Container} {containers : List Container} {ws rest rest' : List Char}
    {p : Pending} (hws : Spaces ws) {hle : rest'.length ≤ rest.length}
    (hopening : skipOpening containers rest c = .ok (p, ⟨rest', hle⟩)) :
    Takes (skipStep .value containers) (ws ++ c.opening :: rest) p rest' := by
  obtain ⟨hlt, htoken⟩ := nextToken_append hws c.not_space.1 rest
  refine ⟨Nat.lt_of_le_of_lt hle hlt, ?_⟩
  simp only [skipStep, skipStart, htoken]
  cases c <;> (simp only [Container.opening, hopening, bind_ok]; rfl)

/-- A container with nothing in it. -/
theorem dropValue_empty {ws space : List Char} (hws : Spaces ws) (hspace : Spaces space)
    (c : Container) (containers : List Container) (rest : List Char) :
    dropValue .value containers (ws ++ (c.opening :: (space ++ [c.closing]) ++ rest))
      = resume (ended containers) rest := by
  have hshape : c.opening :: (space ++ [c.closing]) ++ rest
      = c.opening :: (space ++ c.closing :: rest) := by simp
  obtain ⟨hlt, htoken⟩ := nextToken_append hspace c.not_space.2 rest
  have hopening : skipOpening containers (space ++ c.closing :: rest) c
      = .ok (ended containers, ⟨rest, Nat.le_of_lt hlt⟩) := by
    cases c <;> (simp only [skipOpening, htoken]; rfl)
  rw [hshape]
  exact dropValue_of_takes (takes_opening hws hopening)

/-! ## Lists -/

theorem takes_listComma {after : List Char} (h : Spaces after) (containers : List Container)
    (rest : List Char) : Takes (skipStep .separator (.list :: containers)) (after ++ ',' :: rest)
      (some (.value, .list :: containers)) rest := by
  obtain ⟨hlt, htoken⟩ := nextToken_append h (c := ',') rfl rest
  refine ⟨hlt, ?_⟩
  simp only [skipStep, skipSeparator, htoken]

/-- A padded value is passed together with the space around it. -/
theorem Padded.skips {v cs : List Char} (h : Padded Eq v cs) (hskips : Skips v) (c : Container)
    (containers : List Container) {next : Char} (hnext : next = ',' ∨ next = ']' ∨ next = '}') :
    ∃ after, Spaces after ∧ ∀ rest, dropValue .value (c :: containers) (cs ++ next :: rest)
      = dropValue .separator (c :: containers) (after ++ next :: rest) := by
  obtain ⟨before, form, after, hbefore, rfl, hafter, rfl⟩ := h
  refine ⟨after, hafter, fun rest => ?_⟩
  have hshape : before ++ v ++ after ++ next :: rest = before ++ (v ++ (after ++ next :: rest)) := by
    simp
  rw [hshape]
  exact hskips (c :: containers) before _ hbefore (hafter.ends (ends_cons hnext rest))

/-- The items of a list up to its end. -/
theorem Listing.skips {items : List (List Char)} {body : List Char} (h : Listing Eq items body)
    (hskips : ∀ v ∈ items, Skips v) (containers : List Container) (rest : List Char) :
    dropValue .value (.list :: containers) (body ++ ']' :: rest)
      = resume (ended containers) rest := by
  induction h with
  | last h =>
      obtain ⟨after, hafter, hvalue⟩ :=
        h.skips (hskips _ List.mem_cons_self) .list containers (Or.inr (Or.inl rfl))
      exact (hvalue rest).trans (dropValue_of_takes (takes_closing hafter .list containers rest))
  | @cons v items cs tail h _ ih =>
      obtain ⟨hv, hitems⟩ := List.forall_mem_cons.mp hskips
      obtain ⟨after, hafter, hvalue⟩ := h.skips hv .list containers (Or.inl rfl)
      have hshape : cs ++ ',' :: tail ++ ']' :: rest = cs ++ ',' :: (tail ++ ']' :: rest) := by simp
      rw [hshape, hvalue, dropValue_of_takes (takes_listComma hafter containers _)]
      exact ih hitems

theorem skipOpening_list {containers : List Container} {cs : List Char} {c : Char} {tail : Rest cs}
    (htoken : nextToken cs = some (c, tail)) (hc : c ≠ ']') : skipOpening containers cs .list
      = .ok (some (.value, .list :: containers), .all cs) := by
  simp only [skipOpening, htoken]
  split
  · rename_i heq
    cases heq
  · rename_i heq
    obtain ⟨rfl, -⟩ := Prod.mk.inj (Option.some.inj heq)
    exact absurd rfl hc
  · rfl

theorem skips_list {items : List (List Char)} {v : List Char} (h : ListForm Eq items v)
    (hstarts : ∀ i ∈ items, Starts i) (hskips : ∀ i ∈ items, Skips i) : Skips v := by
  intro containers ws rest hws _
  cases h with
  | empty hspace => exact dropValue_empty hws hspace .list containers rest
  | @full items body hlisting =>
      have hshape : '[' :: (body ++ [']']) ++ rest = '[' :: (body ++ ']' :: rest) := by simp
      obtain ⟨c, tail, htoken, hc, -⟩ := hlisting.nextToken
        (fun i hi cs heq => heq ▸ hstarts i hi) (']' :: rest)
      rw [hshape]
      exact (dropValue_of_takes (takes_opening hws (skipOpening_list htoken hc))).trans
        (hlisting.skips hskips containers rest)

/-! ## Objects -/

theorem takes_objectComma {after rest rest' : List Char} (h : Spaces after)
    (containers : List Container) {hlt : rest'.length < rest.length}
    (hkey : skipKey rest = .ok ⟨rest', hlt⟩) :
    Takes (skipStep .separator (.object :: containers)) (after ++ ',' :: rest)
      (some (.value, .object :: containers)) rest' := by
  obtain ⟨hlt', htoken⟩ := nextToken_append h (c := ',') rfl rest
  refine ⟨Nat.lt_trans hlt hlt', ?_⟩
  simp only [skipStep, skipSeparator, htoken, hkey, bind_ok]
  rfl

theorem skipKey_append {before k middle : List Char} (hbefore : Spaces before) (hk : IsString k)
    (hmiddle : Spaces middle) (rest : List Char) :
    ∃ hlt, skipKey (before ++ (k ++ (middle ++ ':' :: rest))) = .ok ⟨rest, hlt⟩ := by
  obtain ⟨chars, hchars, rfl⟩ := hk
  have hshape : before ++ ('"' :: (chars ++ ['"']) ++ (middle ++ ':' :: rest))
      = before ++ '"' :: (chars ++ '"' :: (middle ++ ':' :: rest)) := by simp
  rw [hshape]
  obtain ⟨hlt, htoken⟩ := nextToken_append hbefore (c := '"') rfl
    (chars ++ '"' :: (middle ++ ':' :: rest))
  obtain ⟨hlt', hskip⟩ := skipString_append hchars (middle ++ ':' :: rest)
  obtain ⟨hlt'', hcolon⟩ := readColon_append hmiddle rest
  refine ⟨Nat.lt_trans hlt'' (Nat.lt_trans hlt' hlt), ?_⟩
  simp only [skipKey, htoken, hskip, bind_ok, hcolon]
  rfl

/-- A padded member: its key is skipped, then its value. -/
theorem Padded.skips_member {m : List Char × List Char} {cs : List Char}
    (h : Padded (MemberForm Eq Eq) m cs) (hk : IsString m.1) (hskips : Skips m.2)
    (containers : List Container) {next : Char} (hnext : next = ',' ∨ next = ']' ∨ next = '}')
    (rest : List Char) :
    ∃ value hlt after, Spaces after ∧ skipKey (cs ++ next :: rest) = .ok ⟨value, hlt⟩
      ∧ dropValue .value (.object :: containers) value
        = dropValue .separator (.object :: containers) (after ++ next :: rest) := by
  obtain ⟨k, v⟩ := m
  obtain ⟨before, form, after, hbefore, ⟨_, middle, space, _, rfl, hmiddle, hspace, rfl, rfl⟩,
    hafter, rfl⟩ := h
  have hshape : before ++ (k ++ middle ++ ':' :: (space ++ v)) ++ after ++ next :: rest
      = before ++ (k ++ (middle ++ ':' :: (space ++ (v ++ (after ++ next :: rest))))) := by simp
  rw [hshape]
  obtain ⟨hlt, hkey⟩ := skipKey_append hbefore hk hmiddle (space ++ (v ++ (after ++ next :: rest)))
  exact ⟨_, hlt, after, hafter, hkey, hskips (.object :: containers) space _ hspace
    (hafter.ends (ends_cons hnext rest))⟩

/-- The members of an object up to its end. -/
theorem Listing.skips_members {members : List (List Char × List Char)} {body : List Char}
    (h : Listing (MemberForm Eq Eq) members body) (hkeys : ∀ m ∈ members, IsString m.1)
    (hskips : ∀ m ∈ members, Skips m.2) (containers : List Container) (rest : List Char) :
    ∃ value hlt, skipKey (body ++ '}' :: rest) = .ok ⟨value, hlt⟩
      ∧ dropValue .value (.object :: containers) value = resume (ended containers) rest := by
  induction h with
  | @last m cs h =>
      obtain ⟨value, hlt, after, hafter, hkey, hvalue⟩ :=
        h.skips_member (hkeys m List.mem_cons_self) (hskips m List.mem_cons_self) containers
          (Or.inr (Or.inr rfl)) rest
      refine ⟨value, hlt, hkey, ?_⟩
      exact hvalue.trans (dropValue_of_takes (takes_closing hafter .object containers rest))
  | @cons m members cs tail h _ ih =>
      obtain ⟨hk, hkeys⟩ := List.forall_mem_cons.mp hkeys
      obtain ⟨hv, hskips⟩ := List.forall_mem_cons.mp hskips
      obtain ⟨value, hlt, after, hafter, hkey, hvalue⟩ :=
        h.skips_member hk hv containers (Or.inl rfl) (tail ++ '}' :: rest)
      obtain ⟨value', hlt', hkey', hvalue'⟩ := ih hkeys hskips
      have hshape : cs ++ ',' :: tail ++ '}' :: rest = cs ++ ',' :: (tail ++ '}' :: rest) := by simp
      rw [hshape]
      refine ⟨value, hlt, hkey, ?_⟩
      rw [hvalue, dropValue_of_takes (takes_objectComma hafter containers hkey')]
      exact hvalue'

theorem skipOpening_object {containers : List Container} {cs : List Char} {c : Char}
    {tail rest : Rest cs} (htoken : nextToken cs = some (c, tail)) (hc : c ≠ '}')
    (hkey : skipKey cs = .ok rest) : skipOpening containers cs .object
      = .ok (some (.value, .object :: containers), rest.remaining) := by
  simp only [skipOpening, htoken, hkey, bind_ok]
  split
  · rename_i heq
    cases heq
  · rename_i heq
    obtain ⟨rfl, -⟩ := Prod.mk.inj (Option.some.inj heq)
    exact absurd rfl hc
  · rfl

theorem skips_object {members : List (List Char × List Char)} {v : List Char}
    (h : ObjectForm Eq Eq members v) (hkeys : ∀ m ∈ members, IsString m.1)
    (hskips : ∀ m ∈ members, Skips m.2) : Skips v := by
  intro containers ws rest hws _
  cases h with
  | empty hspace => exact dropValue_empty hws hspace .object containers rest
  | @full members body hlisting =>
      have hshape : '{' :: (body ++ ['}']) ++ rest = '{' :: (body ++ '}' :: rest) := by simp
      have hstarts : ∀ m ∈ members, ∀ cs, MemberForm Eq Eq m cs → Starts cs := by
        rintro m hm cs ⟨_, before, after, _, rfl, -, -, rfl, rfl⟩
        obtain ⟨chars, -, hk⟩ := hkeys m hm
        rw [hk]
        exact ⟨'"', _, rfl, by decide⟩
      obtain ⟨c, tail, htoken, -, hc⟩ := hlisting.nextToken hstarts ('}' :: rest)
      obtain ⟨value, hlt, hkey, hvalue⟩ := hlisting.skips_members hkeys hskips containers rest
      rw [hshape]
      exact (dropValue_of_takes (takes_opening hws (skipOpening_object htoken hc hkey))).trans hvalue

/-! ## All values -/

theorem IsValue.skips {v : List Char} (h : IsValue v) : Skips v := by
  induction h with
  | word h => exact skips_word h
  | number h => exact skips_number h
  | string h => exact skips_string h
  | list values h ih => exact skips_list h (fun i hi => (values i hi).starts) ih
  | object keys values h ih => exact skips_object h keys ih

/-- Any value is skipped. -/
theorem takes_skipValue {v ws rest : List Char} (h : IsValue v) (hws : Spaces ws)
    (hrest : Ends rest) : Takes skipValue (ws ++ (v ++ rest)) () rest := by
  have hdrop : dropValue .value [] (ws ++ (v ++ rest)) = .ok rest := h.skips [] ws rest hws hrest
  refine ⟨dropValue_shrinks _ _ _ hdrop, ?_⟩
  rw [skipValue]
  split
  · rename_i e herror
    rw [hdrop] at herror
    cases herror
  · rename_i rest' hok
    rw [hdrop] at hok
    obtain rfl := Except.ok.inj hok
    rfl

end CurriedTypings.Json
