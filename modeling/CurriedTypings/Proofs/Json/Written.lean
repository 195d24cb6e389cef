import CurriedTypings.Proofs.Json.Forms
import Mathlib.Data.List.Nodup

/-!
# Every value can be written

A form may be a relation without anything in it. These are not: every string and every natural
number has a form, a container has one if its items have, and so has a record whose fields go
by different names.
-/

namespace CurriedTypings.Json

/-! ## Strings -/

theorem hexDigit_digitChar {d : Nat} (h : d < 16) : HexDigit d (Nat.digitChar d) := ⟨h, Or.inl rfl⟩

theorem exists_charForm (c : Char) : ∃ cs, CharForm c cs := by
  by_cases hplain : IsPlain c
  · exact ⟨_, .plain hplain⟩
  by_cases hquote : c = '"'
  · exact ⟨_, hquote ▸ CharForm.letter (by decide : ('"', '"') ∈ letterEscapes)⟩
  by_cases hbackslash : c = '\\'
  · exact ⟨_, hbackslash ▸ CharForm.letter (by decide : ('\\', '\\') ∈ letterEscapes)⟩
  have hcontrol : c.toNat < 0x20 := by
    by_contra hle
    exact hplain ⟨hquote, hbackslash, Nat.not_lt.mp hle⟩
  have hunit := UnitForm.digits (hexDigit_digitChar (by decide : 0 < 16))
    (hexDigit_digitChar (by decide : 0 < 16)) (hexDigit_digitChar (by omega : c.toNat / 16 < 16))
    (hexDigit_digitChar (by omega : c.toNat % 16 < 16))
  have hdigits : ((0 * 16 + 0) * 16 + c.toNat / 16) * 16 + c.toNat % 16 = c.toNat := by omega
  rw [hdigits] at hunit
  exact ⟨_, .unit hunit⟩

theorem exists_stringForm (s : String) : ∃ cs, StringForm s cs := by
  have hchars : ∀ chars, ∃ cs, CharsForm chars cs := by
    intro chars
    induction chars with
    | nil => exact ⟨[], .nil⟩
    | cons c chars ih =>
        obtain ⟨form, hform⟩ := exists_charForm c
        obtain ⟨forms, hforms⟩ := ih
        exact ⟨form ++ forms, .cons hform hforms⟩
  obtain ⟨cs, h⟩ := hchars s.toList
  exact ⟨_, cs, h, rfl⟩

/-! ## Numbers -/

theorem value_append_singleton (cs : List Char) (c : Char) :
    ArityKey.value (cs ++ [c]) = ArityKey.value cs * 10 + (c.toNat - '0'.toNat) := by
  simp [ArityKey.value]

theorem exists_naturalForm (n : Nat) : ∃ cs, NaturalForm n cs := by
  have hdigit : ∀ d < 10, (Nat.digitChar d).isDigit ∧ (Nat.digitChar d).toNat - '0'.toNat = d := by
    decide
  induction n using Nat.strongRecOn with
  | ind n ih =>
    by_cases hsmall : n < 10
    · obtain ⟨hisDigit, hvalue⟩ := hdigit n hsmall
      refine ⟨[Nat.digitChar n], ⟨⟨by simp, by simpa using hisDigit⟩, ?_⟩, ?_⟩
      · intro hhead
        rw [Option.some.inj hhead]
      · simpa [ArityKey.value] using hvalue
    · obtain ⟨cs, ⟨⟨hne, hdigits⟩, hzero⟩, hvalue⟩ := ih (n / 10) (by omega)
      obtain ⟨hisDigit, hlast⟩ := hdigit (n % 10) (Nat.mod_lt n (by decide))
      refine ⟨cs ++ [Nat.digitChar (n % 10)], ⟨⟨by simp, ?_⟩, ?_⟩, ?_⟩
      · intro c hc
        obtain hc | hc := List.mem_append.mp hc
        · exact hdigits c hc
        · rwa [List.mem_singleton.mp hc]
      · -- a leading zero would be all there is of the tenth, which is not zero
        intro hhead
        rw [List.head?_append_of_ne_nil cs hne] at hhead
        rw [hzero hhead] at hvalue
        have hvalue : 0 = n / 10 := hvalue
        omega
      · rw [value_append_singleton, hvalue, hlast]
        omega

theorem exists_booleanForm (b : Bool) : ∃ cs, BooleanForm b cs := ⟨_, rfl⟩

/-! ## Containers -/

section Containers

variable {α β : Type} {item : β → List Char → Prop}

theorem exists_enclosed (opening closing : Char) {bs : List β} (h : ∀ b ∈ bs, ∃ cs, item b cs) :
    ∃ cs, Enclosed item opening closing bs cs := by
  have hlisting : ∀ bs : List β, bs ≠ [] → (∀ b ∈ bs, ∃ cs, item b cs) →
      ∃ body, Listing item bs body := by
    intro bs hne hitems
    induction bs with
    | nil => exact absurd rfl hne
    | cons b bs ih =>
        obtain ⟨⟨cs, hb⟩, hitems⟩ := List.forall_mem_cons.mp hitems
        cases bs with
        | nil => exact ⟨_, .last (padded [] [] hb)⟩
        | cons b' bs =>
            obtain ⟨tail, htail⟩ := ih (by simp) hitems
            exact ⟨_, .cons (padded [] [] hb) htail⟩
  cases bs with
  | nil => exact ⟨_, .empty (by decide : Spaces [])⟩
  | cons b bs =>
      obtain ⟨body, hbody⟩ := hlisting (b :: bs) (by simp) h
      exact ⟨_, .full hbody⟩

theorem exists_listForm {bs : List β} (h : ∀ b ∈ bs, ∃ cs, item b cs) :
    ∃ cs, ListForm item bs cs := exists_enclosed '[' ']' h

theorem exists_objectForm {members : List (String × β)} (h : ∀ m ∈ members, ∃ cs, item m.2 cs) :
    ∃ cs, ObjectForm StringForm item members cs := by
  refine exists_enclosed '{' '}' fun m hm => ?_
  obtain ⟨k, hk⟩ := exists_stringForm m.1
  obtain ⟨v, hv⟩ := h m hm
  exact ⟨_, memberForm [] [] hk hv⟩

theorem exists_tableForm {t : Table β} (h : ∀ entry ∈ t, ∃ cs, item entry.2 cs) :
    ∃ cs, TableForm item t cs := exists_objectForm h

end Containers

/-- A record with all its fields, in their order, and nothing else. -/
theorem exists_recordForm {fields : List FieldForm} (distinct : (fields.map FieldForm.name).Nodup)
    (h : ∀ f ∈ fields, ∃ cs, f.form cs) : ∃ cs, RecordForm fields cs := by
  choose! written hwritten using h
  obtain ⟨cs, hobject⟩ := @exists_objectForm (List Char) Eq
    (fields.map fun f => (f.name, written f)) (fun m _ => ⟨m.2, rfl⟩)
  have hnames : (fields.map fun f => (f.name, written f)).map Prod.fst = fields.map FieldForm.name := by
    simp [Function.comp_def]
  refine ⟨cs, _, hobject, fun f hf => ⟨?_, fun _ => ?_⟩, ?_⟩
  · rw [hnames]
    exact List.nodup_iff_count_le_one.mp distinct f.name
  · rw [hnames]
    exact List.mem_map_of_mem hf
  · intro m hm
    obtain ⟨f, hf, rfl⟩ := List.mem_map.mp hm
    refine ⟨fun g hg hname => ?_, fun hother => absurd rfl (hother f hf)⟩
    obtain rfl := List.inj_on_of_nodup_map distinct hg hf hname
    exact hwritten g hg

end CurriedTypings.Json
