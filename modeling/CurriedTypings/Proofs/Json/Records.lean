import CurriedTypings.Proofs.Json.Values

/-!
# Reading records

What is known of a record while it is read depends on the keys that have been read, and on
nothing else: not on their order, nor on the values of members that are no fields (`Describes`).
So a record is read to what is known under its keys (`takes_record`): each field is read once,
when its key comes, and sets what it is a field of; any other member is skipped. A field that
has to be there is there, since a form has the keys of all needed fields.
-/

namespace CurriedTypings.Json

variable {α σ : Type}

/-- A field is read from its form, as a step from one set of keys to the next. -/
structure Field.Reads (field : Field σ) (form : FieldForm) (known : List String → σ) : Prop where
  name : field.name = form.name
  needed : field.required → form.needed
  isSet : ∀ keys, field.isSet (known keys) = decide (form.name ∈ keys)
  takes : ∀ (keys : List String) {v ws rest : List Char}, form.form v → Spaces ws → Ends rest →
    Takes (field.read (known keys)) (ws ++ (v ++ rest)) (known (keys ++ [form.name])) rest

/-- A value that is known as soon as its key has been read. -/
def knownUnder (name : String) (a : α) (keys : List String) : Option α :=
  if name ∈ keys then some a else none

@[simp] theorem knownUnder_append_self (name : String) (a : α) (keys : List String) :
    knownUnder name a (keys ++ [name]) = some a := by
  simp [knownUnder]

theorem knownUnder_append_of_ne {name key : String} (h : name ≠ key) (a : α) (keys : List String) :
    knownUnder name a (keys ++ [key]) = knownUnder name a keys := by
  simp [knownUnder, h]

/-- Whatever differs from its default has its key among those that have been read. -/
theorem getD_knownUnder {name : String} {a default : α} {keys : List String}
    (h : a ≠ default → name ∈ keys) : (knownUnder name a keys).getD default = a := by
  by_cases hmem : name ∈ keys
  · simp [knownUnder, hmem]
  · simp [knownUnder, hmem, Classical.not_not.mp fun hne => hmem (h hne)]

/-- A field that is kept as an optional value reads the forms that its reader accepts. -/
theorem Field.reads_of {name : String} {required : Bool} {value : Reader α} {get : σ → Option α}
    {set : σ → α → σ} {accepted : α → List Char → Prop} {form : FieldForm} {a : α}
    {known : List String → σ} (accepts : Accepts value accepted) (hname : name = form.name)
    (hform : ∀ cs, form.form cs → accepted a cs) (hneeded : required → form.needed)
    (hget : ∀ keys, get (known keys) = knownUnder name a keys)
    (hset : ∀ keys, set (known keys) a = known (keys ++ [name])) :
    (Field.of name required value get set).Reads form known where
  name := hname
  needed := hneeded
  isSet keys := by
    show (get (known keys)).isSome = decide (form.name ∈ keys)
    rw [hget, ← hname, knownUnder]
    by_cases h : name ∈ keys <;> simp [h]
  takes keys v ws rest hv hws hrest := by
    obtain ⟨hlt, hread⟩ := accepts.takes (hform v hv) hws hrest
    refine ⟨hlt, ?_⟩
    simp only [Field.of, hread, bind_ok, hset, hname]

/-- What a shape knows of a record, as a function of the keys that have been read. -/
structure Shape.Describes (shape : Shape σ) (forms : List FieldForm) (known : List String → σ) :
    Prop where
  fields : List.Forall₂ (fun field form => field.Reads form known) shape.fields forms
  others : ∀ (keys : List String) (key : String), (∀ f ∈ forms, f.name ≠ key) →
    known (keys ++ [key]) = known keys

theorem exists_of_forall₂ {β γ : Type} {R : β → γ → Prop} {bs : List β} {cs : List γ}
    (h : List.Forall₂ R bs cs) {b : β} (hb : b ∈ bs) : ∃ c ∈ cs, R b c := by
  induction h with
  | nil => cases hb
  | @cons b' c bs cs hR _ ih =>
      obtain rfl | hb := List.mem_cons.mp hb
      · exact ⟨c, List.mem_cons_self, hR⟩
      · obtain ⟨c', hc', hR'⟩ := ih hb
        exact ⟨c', List.mem_cons_of_mem c hc', hR'⟩

namespace Shape.Describes

variable {shape : Shape σ} {forms : List FieldForm} {known : List String → σ}

/-- No field goes by a key that no field of the shape has. -/
theorem not_field (h : shape.Describes forms known) {key : String}
    (hfind : (shape.fields.find? fun f => f.name = key) = none) :
    ∀ f ∈ forms, f.name ≠ key := by
  intro form hform
  obtain ⟨field, hfield, reads⟩ := exists_of_forall₂ h.fields.flip hform
  rw [← reads.name]
  simpa using List.find?_eq_none.mp hfind field hfield

/-- A member of a record takes what is known under the keys before it to what is known under
its own key as well. -/
theorem takesMember (h : shape.Describes forms known) {before after : List (String × List Char)}
    {m : String × List Char}
    (honce : ∀ f ∈ forms, ((before ++ m :: after).map Prod.fst).count f.name ≤ 1)
    (hvalue : (∀ f ∈ forms, f.name = m.1 → f.form m.2) ∧ ((∀ f ∈ forms, f.name ≠ m.1) → IsValue m.2)) :
    TakesMember shape.onMember Eq m (known (before.map Prod.fst))
      (known ((before ++ [m]).map Prod.fst)) := by
  obtain ⟨key, value⟩ := m
  rintro _ middle space rest rfl hmiddle hspace hrest
  rw [List.map_append, List.map_singleton]
  cases hfind : shape.fields.find? fun f => f.name = key with
  | none =>
      have hother := h.not_field hfind
      obtain ⟨hlt, hread⟩ := takes_memberValue hmiddle (takes_skipValue (hvalue.2 hother) hspace hrest)
      refine ⟨hlt, ?_⟩
      simp only [Shape.onMember, hfind, hread, bind_ok, h.others _ key hother]
  | some field =>
      obtain ⟨form, hform, reads⟩ := exists_of_forall₂ h.fields (List.mem_of_find?_eq_some hfind)
      have hname : field.name = key := by simpa using List.find?_some hfind
      obtain rfl : form.name = key := reads.name.symm.trans hname
      have hnew : form.name ∉ before.map Prod.fst := by
        intro hmem
        have hcount := honce form hform
        have hpos := List.count_pos_iff.mpr hmem
        rw [List.map_append, List.map_cons, List.count_append, List.count_cons_self] at hcount
        omega
      have hunset : field.isSet (known (before.map Prod.fst)) = false := by
        rw [reads.isSet, decide_eq_false hnew]
      obtain ⟨hlt, hread⟩ := takes_memberValue hmiddle
        (reads.takes (before.map Prod.fst) (hvalue.1 form hform rfl) hspace hrest)
      refine ⟨hlt, ?_⟩
      simp only [Shape.onMember, hfind, hunset, Bool.false_eq_true, if_false, hread]

theorem checkComplete_eq (h : shape.Describes forms known) {keys : List String}
    (hneeded : ∀ f ∈ forms, f.needed → f.name ∈ keys) : shape.checkComplete (known keys) = .ok () := by
  have hfind : (shape.fields.find? fun f => f.required && !f.isSet (known keys)) = none := by
    refine List.find?_eq_none.mpr fun field hfield => ?_
    obtain ⟨form, hform, reads⟩ := exists_of_forall₂ h.fields hfield
    by_cases hrequired : field.required
    · simp [reads.isSet, hneeded form hform (reads.needed hrequired)]
    · simp [hrequired]
  rw [Shape.checkComplete, hfind]

/-- A record is read to what is known under its keys, among which are those of all needed
fields. -/
theorem takes_record (h : shape.Describes forms known) {cs ws : List Char}
    (hform : RecordForm forms cs) (hws : Spaces ws) (rest : List Char) :
    ∃ keys, (∀ f ∈ forms, f.needed → f.name ∈ keys)
      ∧ Takes (shape.reader (known [])) (ws ++ (cs ++ rest)) (known keys) rest := by
  obtain ⟨members, hobject, hfields, hvalues⟩ := hform
  have hmembers : ∀ before m after, members = before ++ m :: after →
      TakesMember shape.onMember Eq m (known (before.map Prod.fst))
        (known ((before ++ [m]).map Prod.fst)) := by
    rintro before m after rfl
    exact h.takesMember (fun f hf => (hfields f hf).1) (hvalues m (by simp))
  obtain ⟨inner, hshape, hlt', hread⟩ := @takes_object _ _ _ _
    (fun ms => known (ms.map Prod.fst)) members cs rest hobject hmembers
  obtain ⟨hlt, htoken⟩ := nextToken_append hws (c := '{') rfl inner
  have hneeded : ∀ f ∈ forms, f.needed → f.name ∈ members.map Prod.fst :=
    fun f hf => (hfields f hf).2
  refine ⟨members.map Prod.fst, hneeded, ?_⟩
  rw [hshape]
  refine ⟨Nat.lt_trans hlt' hlt, ?_⟩
  simp only [List.map_nil] at hread
  simp only [Shape.reader, htoken, hread, bind_ok, h.checkComplete_eq hneeded]
  rfl

end Shape.Describes

end CurriedTypings.Json
