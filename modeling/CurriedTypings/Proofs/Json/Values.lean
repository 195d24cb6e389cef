import CurriedTypings.Proofs.Json.Members
import CurriedTypings.Proofs.Json.Skipping

/-!
# Reading what has been written

A reader accepts a form if it takes the value of the form off every document that goes on
with it (`Accepts`). The readers for values of a known kind accept the forms of these values,
and the readers for containers those of containers if the readers for their items do: so a
reader accepts a form because the two are put together in the same way.

The state of a walk through the members of an object is a function of the members that have
been read (`Listing.takes_members`). Where all of them are kept it is the list of them.
-/

namespace CurriedTypings.Json

variable {α β σ : Type}

/-- A reader takes the value of every form off a document, together with the space before it. -/
structure Accepts (r : Reader α) (form : α → List Char → Prop) : Prop where
  starts : ∀ {a : α} {cs : List Char}, form a cs → Starts cs
  takes : ∀ {a : α} {cs : List Char}, form a cs → ∀ {ws rest : List Char}, Spaces ws →
    Ends rest → Takes r (ws ++ (cs ++ rest)) a rest

/-! ## Single values -/

theorem StringForm.starts {s : String} {cs : List Char} (h : StringForm s cs) : Starts cs := by
  obtain ⟨forms, -, rfl⟩ := h
  exact ⟨'"', _, rfl, by decide⟩

/-- The token of a string, and what is read behind it. -/
theorem StringForm.nextToken {s : String} {cs ws : List Char} (h : StringForm s cs)
    (hws : Spaces ws) (rest : List Char) :
    ∃ inner hlt hlt', Json.nextToken (ws ++ (cs ++ rest)) = some ('"', ⟨inner, hlt⟩)
      ∧ readString inner = .ok (s, ⟨rest, hlt'⟩) := by
  obtain ⟨forms, hforms, rfl⟩ := h
  have hshape : ws ++ ('"' :: (forms ++ ['"']) ++ rest) = ws ++ '"' :: (forms ++ '"' :: rest) := by
    simp
  rw [hshape]
  obtain ⟨hlt, htoken⟩ := nextToken_append hws (c := '"') rfl (forms ++ '"' :: rest)
  obtain ⟨hlt', hread⟩ := takes_readString hforms rest
  exact ⟨_, hlt, hlt', htoken, hread⟩

theorem accepts_string (expected : String) : Accepts (string expected) StringForm where
  starts := StringForm.starts
  takes h ws rest hws _ := by
    obtain ⟨inner, hlt, hlt', htoken, hread⟩ := h.nextToken hws rest
    refine ⟨Nat.lt_trans hlt' hlt, ?_⟩
    simp only [string, htoken, hread, bind_ok]
    rfl

theorem accepts_text : Accepts text StringForm := accepts_string "a string"

theorem accepts_boolean : Accepts boolean BooleanForm where
  starts {b cs} h := by
    cases b with
    | true => exact h ▸ ⟨'t', _, rfl, by decide⟩
    | false => exact h ▸ ⟨'f', _, rfl, by decide⟩
  takes {b cs} h ws rest hws _ := by
    cases b with
    | true =>
        obtain rfl : cs = ['t', 'r', 'u', 'e'] := h
        refine @takes_word _ _ _ 't' ['r', 'u', 'e'] ws rfl (fun cs tail htoken => ?_) hws rest
        simp only [boolean, htoken]
    | false =>
        obtain rfl : cs = ['f', 'a', 'l', 's', 'e'] := h
        refine @takes_word _ _ _ 'f' ['a', 'l', 's', 'e'] ws rfl (fun cs tail htoken => ?_) hws rest
        simp only [boolean, htoken]

theorem accepts_natural {range : NaturalRange} (hlimit : range.limit ≤ Nat.pow 2 64) :
    Accepts (natural range) fun n cs => n < range.limit ∧ NaturalForm n cs where
  starts := by
    rintro n cs ⟨-, ⟨⟨hne, hdigits⟩, -⟩, -⟩
    cases cs with
    | nil => exact absurd rfl hne
    | cons d cs => exact starts_of_isDigit (hdigits d List.mem_cons_self) cs
  takes h ws rest hws hrest := takes_natural hlimit h.2 h.1 hws hrest

theorem accepts_variant (variants : Variants α) : Accepts (variant variants)
    fun a cs => ∃ name, List.lookup name variants = some a ∧ StringForm name cs where
  starts := fun ⟨_, _, h⟩ => h.starts
  takes := by
    rintro a cs ⟨name, hlookup, h⟩ ws rest hws _
    obtain ⟨inner, hlt, hlt', htoken, hread⟩ := h.nextToken hws rest
    refine ⟨Nat.lt_trans hlt' hlt, ?_⟩
    simp only [variant, htoken, hread, bind_ok, Variants.check, hlookup]
    rfl

/-! ## Lists -/

theorem nextElement_first {cs : List Char} {c : Char} {tail : Rest cs}
    (htoken : nextToken cs = some (c, tail)) (hc : c ≠ ']') :
    nextElement true cs = .ok (.element (.all cs)) := by
  simp only [nextElement, htoken, if_neg hc, if_true]

theorem nextElement_comma {after cs : List Char} (hafter : Spaces after) {c : Char} {tail : Rest cs}
    (htoken : nextToken cs = some (c, tail)) (hc : c ≠ ']') :
    ∃ hle, nextElement false (after ++ ',' :: cs) = .ok (.element ⟨cs, hle⟩) := by
  obtain ⟨hlt, hcomma⟩ := nextToken_append hafter (c := ',') rfl cs
  refine ⟨Nat.le_of_lt hlt, ?_⟩
  have hcomma' : (',' = ']') = False := by decide
  simp only [nextElement, hcomma, hcomma', Bool.false_eq_true, if_false, if_true, htoken]
  split
  · rename_i heq
    cases heq
  · rename_i heq
    obtain ⟨rfl, -⟩ := Prod.mk.inj (Option.some.inj heq)
    exact absurd rfl hc
  · rfl

theorem nextElement_end (first : Bool) {ws : List Char} (hws : Spaces ws) (rest : List Char) :
    ∃ hlt, nextElement first (ws ++ ']' :: rest) = .ok (.done ⟨rest, hlt⟩) := by
  obtain ⟨hlt, htoken⟩ := nextToken_append hws (c := ']') rfl rest
  refine ⟨hlt, ?_⟩
  simp only [nextElement, htoken, if_true]

theorem takes_elements_nil {item : Reader α} {first : Bool} {cs rest : List Char}
    {hlt : rest.length < cs.length} (h : nextElement first cs = .ok (.done ⟨rest, hlt⟩)) :
    Takes (readElements item first) cs [] rest := by
  refine ⟨hlt, ?_⟩
  rw [readElements, h]

theorem takes_elements_cons {item : Reader α} {first : Bool} {cs start middle rest : List Char}
    {a : α} {as : List α} {hle : start.length ≤ cs.length}
    (h : nextElement first cs = .ok (.element ⟨start, hle⟩)) (hitem : Takes item start a middle)
    (hrest : Takes (readElements item false) middle as rest) :
    Takes (readElements item first) cs (a :: as) rest := by
  obtain ⟨hlt, hitem⟩ := hitem
  obtain ⟨hlt', hrest⟩ := hrest
  refine ⟨Nat.lt_trans hlt' (Nat.lt_of_lt_of_le hlt hle), ?_⟩
  rw [readElements, h]
  simp only [hitem, hrest]
  rfl

theorem Padded.takes {item : Reader α} {form : α → List Char → Prop} (accepts : Accepts item form)
    {a : α} {cs : List Char} (h : Padded form a cs) {next : Char}
    (hnext : next = ',' ∨ next = ']' ∨ next = '}') :
    ∃ after, Spaces after ∧ ∀ rest, Takes item (cs ++ next :: rest) a (after ++ next :: rest) := by
  obtain ⟨before, v, after, hbefore, hv, hafter, rfl⟩ := h
  refine ⟨after, hafter, fun rest => ?_⟩
  have hshape : before ++ v ++ after ++ next :: rest = before ++ (v ++ (after ++ next :: rest)) := by
    simp
  rw [hshape]
  exact accepts.takes hv hbefore (hafter.ends (ends_cons hnext rest))

/-- The elements of a list up to its end, once the first of them has been found. -/
theorem Listing.takes {item : Reader α} {form : α → List Char → Prop} (accepts : Accepts item form)
    {as : List α} {body : List Char} (h : Listing form as body) {first : Bool} {cs rest : List Char}
    {hle : (body ++ ']' :: rest).length ≤ cs.length}
    (hfirst : nextElement first cs = .ok (.element ⟨body ++ ']' :: rest, hle⟩)) :
    Takes (readElements item first) cs as rest := by
  induction h generalizing first cs with
  | last h =>
      obtain ⟨after, hafter, htake⟩ := h.takes accepts (Or.inr (Or.inl rfl))
      obtain ⟨_, hend⟩ := nextElement_end false hafter rest
      exact takes_elements_cons hfirst (htake rest) (takes_elements_nil hend)
  | @cons a as v tail h htail ih =>
      obtain ⟨after, hafter, htake⟩ := h.takes accepts (Or.inl rfl)
      obtain ⟨c, t, htoken, hc, -⟩ := htail.nextToken (fun b _ cs hb => accepts.starts hb) (']' :: rest)
      obtain ⟨_, hcomma⟩ := nextElement_comma hafter htoken hc
      have hshape : v ++ ',' :: tail ++ ']' :: rest = v ++ ',' :: (tail ++ ']' :: rest) := by simp
      have hitem := htake (tail ++ ']' :: rest)
      rw [← hshape] at hitem
      exact takes_elements_cons hfirst hitem (ih hcomma)

theorem accepts_list {item : Reader α} {form : α → List Char → Prop} (accepts : Accepts item form) :
    Accepts (list item) (ListForm form) where
  starts h := Enclosed.starts h (by decide)
  takes {as cs} h ws rest hws _ := by
    have hread : ∀ body, Takes (readElements item true) (body ++ ']' :: rest) as rest →
        Takes (list item) (ws ++ ('[' :: (body ++ [']']) ++ rest)) as rest := by
      rintro body ⟨hlt', hread⟩
      have hshape : ws ++ ('[' :: (body ++ [']']) ++ rest) = ws ++ '[' :: (body ++ ']' :: rest) := by
        simp
      rw [hshape]
      obtain ⟨hlt, htoken⟩ := nextToken_append hws (c := '[') rfl (body ++ ']' :: rest)
      refine ⟨Nat.lt_trans hlt' hlt, ?_⟩
      simp only [list, htoken, hread, bind_ok]
      rfl
    cases h with
    | empty hspace =>
        obtain ⟨_, hend⟩ := nextElement_end true hspace rest
        exact hread _ (takes_elements_nil hend)
    | full hlisting =>
        obtain ⟨c, t, htoken, hc, -⟩ :=
          hlisting.nextToken (fun b _ cs hb => accepts.starts hb) (']' :: rest)
        exact hread _ (hlisting.takes accepts (nextElement_first htoken hc))

/-! ## Members -/

/-- What stands between the brace or the last member and the space before a key. -/
def MemberLead (first : Bool) (lead : List Char) : Prop :=
  if first then lead = [] else ∃ after, Spaces after ∧ lead = after ++ [',']

theorem nextMember_key {first : Bool} {lead before k : List Char} {key : String}
    (hlead : MemberLead first lead) (hbefore : Spaces before) (hk : StringForm key k)
    (rest : List Char) :
    ∃ hlt, nextMember first (lead ++ (before ++ (k ++ rest))) = .ok (.member key ⟨rest, hlt⟩) := by
  obtain ⟨inner, hlt, hlt', htoken, hread⟩ := hk.nextToken hbefore rest
  cases first with
  | true =>
      obtain rfl : lead = [] := hlead
      refine ⟨Nat.lt_trans hlt' hlt, ?_⟩
      show nextMember true (before ++ (k ++ rest)) = _
      simp only [nextMember, htoken, readKey, hread, bind_ok]
      rfl
  | false =>
      obtain ⟨after, hafter, rfl⟩ : ∃ after, Spaces after ∧ lead = after ++ [','] := hlead
      have hshape : after ++ [','] ++ (before ++ (k ++ rest))
          = after ++ ',' :: (before ++ (k ++ rest)) := by simp
      rw [hshape]
      obtain ⟨hlt'', hcomma⟩ := nextToken_append hafter (c := ',') rfl (before ++ (k ++ rest))
      refine ⟨Nat.lt_trans hlt' (Nat.lt_trans hlt hlt''), ?_⟩
      have hcomma' : (',' = '}') = False := by decide
      simp only [nextMember, hcomma, hcomma', Bool.false_eq_true, if_false, if_true, htoken]
      split
      · rename_i heq
        cases heq
      · rename_i heq
        obtain ⟨hbrace, -⟩ := Prod.mk.inj (Option.some.inj heq)
        exact absurd hbrace (by decide)
      · rename_i heq
        obtain ⟨rfl, rfl⟩ := Prod.mk.inj (Option.some.inj heq)
        simp only [readKey, if_true, Rest.within, hread, bind_ok]

theorem nextMember_end (first : Bool) {ws : List Char} (hws : Spaces ws) (rest : List Char) :
    ∃ hlt, nextMember first (ws ++ '}' :: rest) = .ok (.done ⟨rest, hlt⟩) := by
  obtain ⟨hlt, htoken⟩ := nextToken_append hws (c := '}') rfl rest
  refine ⟨hlt, ?_⟩
  simp only [nextMember, htoken, if_true]

theorem takes_members_nil {onMember : String → σ → Reader σ} {first : Bool} {s : σ}
    {cs rest : List Char} {hlt : rest.length < cs.length}
    (h : nextMember first cs = .ok (.done ⟨rest, hlt⟩)) :
    Takes (readMembers onMember first s) cs s rest := by
  refine ⟨hlt, ?_⟩
  rw [readMembers, h]

theorem takes_members_cons {onMember : String → σ → Reader σ} {first : Bool} {s s' s'' : σ}
    {key : String} {cs middle next rest : List Char} {hlt : middle.length < cs.length}
    (h : nextMember first cs = .ok (.member key ⟨middle, hlt⟩))
    (hmember : Takes (onMember key s) middle s' next)
    (hrest : Takes (readMembers onMember false s') next s'' rest) :
    Takes (readMembers onMember first s) cs s'' rest := by
  obtain ⟨hlt', hmember⟩ := hmember
  obtain ⟨hlt'', hrest⟩ := hrest
  refine ⟨Nat.lt_trans hlt'' (Nat.lt_trans hlt' hlt), ?_⟩
  rw [readMembers, h]
  simp only [hmember, hrest]
  rfl

theorem takes_memberValue {value : Reader α} {ws cs rest : List Char} {a : α} (hws : Spaces ws)
    (h : Takes value cs a rest) : Takes (memberValue value) (ws ++ ':' :: cs) a rest := by
  obtain ⟨hlt, hcolon⟩ := readColon_append hws cs
  obtain ⟨hlt', h⟩ := h
  refine ⟨Nat.lt_trans hlt' hlt, ?_⟩
  simp only [memberValue, hcolon, bind_ok, h]
  rfl

/-- A member, read from behind its key, takes one state to another one, whatever form its value
has. -/
def TakesMember (onMember : String → σ → Reader σ) (form : β → List Char → Prop) (m : String × β)
    (s s' : σ) : Prop :=
  ∀ {v middle space rest : List Char}, form m.2 v → Spaces middle → Spaces space → Ends rest →
    Takes (onMember m.1 s) (middle ++ ':' :: (space ++ (v ++ rest))) s' rest

/-- The members of an object up to its end. The state is a function of the members read before. -/
theorem Listing.takes_members {onMember : String → σ → Reader σ} {form : β → List Char → Prop}
    {state : List (String × β) → σ} {ms : List (String × β)} {body : List Char}
    (h : Listing (MemberForm StringForm form) ms body) {done : List (String × β)}
    (hmembers : ∀ before m after, done ++ ms = before ++ m :: after →
      TakesMember onMember form m (state before) (state (before ++ [m])))
    {first : Bool} {lead : List Char} (hlead : MemberLead first lead) (rest : List Char) :
    Takes (readMembers onMember first (state done)) (lead ++ (body ++ '}' :: rest))
      (state (done ++ ms)) rest := by
  induction h generalizing done first lead with
  | @last m cs h =>
      obtain ⟨before, _, after, hbefore, ⟨k, middle, space, v, hk, hmiddle, hspace, hv, rfl⟩,
        hafter, rfl⟩ := h
      have hshape : before ++ (k ++ middle ++ ':' :: (space ++ v)) ++ after ++ '}' :: rest
          = before ++ (k ++ (middle ++ ':' :: (space ++ (v ++ (after ++ '}' :: rest))))) := by simp
      rw [hshape]
      obtain ⟨_, hkey⟩ := nextMember_key hlead hbefore hk
        (middle ++ ':' :: (space ++ (v ++ (after ++ '}' :: rest))))
      obtain ⟨_, hend⟩ := nextMember_end false hafter rest
      exact takes_members_cons hkey (hmembers done m [] rfl hv hmiddle hspace
        (hafter.ends (ends_cons (by simp) rest))) (takes_members_nil hend)
  | @cons m ms cs tail h _ ih =>
      obtain ⟨before, _, after, hbefore, ⟨k, middle, space, v, hk, hmiddle, hspace, hv, rfl⟩,
        hafter, rfl⟩ := h
      have hshape : before ++ (k ++ middle ++ ':' :: (space ++ v)) ++ after ++ ',' :: tail
            ++ '}' :: rest
          = before ++ (k ++ (middle ++ ':' :: (space ++ (v ++ (after ++ [','] ++
            (tail ++ '}' :: rest)))))) := by simp
      rw [hshape]
      have hends : Ends (after ++ [','] ++ (tail ++ '}' :: rest)) := by
        rw [List.append_assoc]
        exact hafter.ends (ends_cons (by simp) _)
      have hsplit : done ++ m :: ms = done ++ [m] ++ ms := by simp
      obtain ⟨_, hkey⟩ := nextMember_key hlead hbefore hk
        (middle ++ ':' :: (space ++ (v ++ (after ++ [','] ++ (tail ++ '}' :: rest)))))
      have hmember := hmembers done m ms rfl hv hmiddle hspace hends
      rw [hsplit] at hmembers ⊢
      exact takes_members_cons hkey hmember (ih hmembers ⟨after, hafter, rfl⟩)

/-- An object, read from behind its brace. -/
theorem takes_object {onMember : String → σ → Reader σ} {form : β → List Char → Prop}
    {state : List (String × β) → σ} {ms : List (String × β)} {cs rest : List Char}
    (h : ObjectForm StringForm form ms cs)
    (hmembers : ∀ before m after, ms = before ++ m :: after →
      TakesMember onMember form m (state before) (state (before ++ [m]))) :
    ∃ inner, cs ++ rest = '{' :: inner
      ∧ Takes (readMembers onMember true (state [])) inner (state ms) rest := by
  cases h with
  | @empty ws hws =>
      obtain ⟨_, hend⟩ := nextMember_end true hws rest
      exact ⟨ws ++ '}' :: rest, by simp, takes_members_nil hend⟩
  | @full ms body hlisting =>
      have hread : Takes (readMembers onMember true (state [])) ([] ++ (body ++ '}' :: rest))
          (state ([] ++ ms)) rest := @Listing.takes_members _ _ _ _ _ _ _ hlisting [] hmembers true []
            rfl rest
      exact ⟨body ++ '}' :: rest, by simp, hread⟩

/-- All members of an object are read, in their order. -/
theorem accepts_members {value : Reader α} {form : α → List Char → Prop}
    (accepts : Accepts value form) : Accepts (members value) (TableForm form) where
  starts h := Enclosed.starts h (by decide)
  takes {ms cs} h ws rest hws _ := by
    have hmembers : ∀ before m after, ms = before ++ m :: after →
        TakesMember (members.onMember value) form m before (before ++ [m]) := by
      rintro before m after rfl v middle space rest hv hmiddle hspace hrest
      obtain ⟨hlt, hread⟩ := takes_memberValue hmiddle (accepts.takes hv hspace hrest)
      refine ⟨hlt, ?_⟩
      simp only [members.onMember, hread, bind_ok]
    obtain ⟨inner, hshape, hlt', hread⟩ := @takes_object _ _ _ _ id ms cs rest h hmembers
    obtain ⟨hlt, htoken⟩ := nextToken_append hws (c := '{') rfl inner
    rw [hshape]
    refine ⟨Nat.lt_trans hlt' hlt, ?_⟩
    simp only [id] at hread
    simp only [members, htoken, hread, bind_ok]
    rfl

end CurriedTypings.Json
