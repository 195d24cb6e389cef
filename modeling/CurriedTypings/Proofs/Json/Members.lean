import CurriedTypings.Json.Typed
import CurriedTypings.Proofs.Traversal
import Mathlib.Data.List.Nodup

/-!
# Members with the same key

An object may have several members with the same key. A table keeps one of them: the key stays
where it was first, with the value it had last (`Table.latest`). What a table is read to is what
`members` reads, which keeps every member, with all but the last one for each key taken out
(`table_eq_members`).

This holds because every step of the one reader is a step of the other one, seen through a
function of what is known (`readMembers_map`), and it carries over from the tables of a record
to the record (`Shape.Simulates.reader_map`).
-/

namespace CurriedTypings

/-! ## The last value of each key -/

namespace Table

variable {α : Type} {key : String} {a : α}

/-- The table that members come to when they are put into it one by one. -/
def latest (ms : List (String × α)) : Table α := ms.foldl (fun t m => t.put m.1 m.2) []

/-- A member behind which there is no other one with its key. -/
def IsLast (ms : List (String × α)) (key : String) (a : α) : Prop :=
  ∃ before after, ms = before ++ (key, a) :: after ∧ key ∉ keys after

theorem latest_append_singleton (ms : List (String × α)) (m : String × α) :
    latest (ms ++ [m]) = (latest ms).put m.1 m.2 := by
  rw [latest, List.foldl_append]
  rfl

theorem keys_foldl_put (ms : List (String × α)) (t : Table α) :
    (ms.foldl (fun t m => t.put m.1 m.2) t).keys = addNew t.keys (keys ms) := by
  induction ms generalizing t with
  | nil => rfl
  | cons m ms ih =>
      rw [List.foldl_cons, ih, keys_put]
      rfl

/-- Each key stays where it was first. -/
theorem keys_latest (ms : List (String × α)) : (latest ms).keys = distinct (keys ms) := by
  rw [latest, keys_foldl_put, ← addNew_nil_left]
  rfl

theorem nodup_keys_latest (ms : List (String × α)) : (latest ms).keys.Nodup :=
  keys_latest ms ▸ nodup_distinct _

theorem isLast_cons_iff {m : String × α} {ms : List (String × α)} :
    IsLast (m :: ms) key a ↔ IsLast ms key a ∨ m = (key, a) ∧ key ∉ keys ms := by
  constructor
  · rintro ⟨before, after, hsplit, hafter⟩
    cases before with
    | nil =>
        obtain ⟨rfl, rfl⟩ := List.cons.inj hsplit
        exact Or.inr ⟨rfl, hafter⟩
    | cons _ before => exact Or.inl ⟨before, after, (List.cons.inj hsplit).2, hafter⟩
  · rintro (⟨before, after, rfl, hafter⟩ | ⟨rfl, hms⟩)
    · exact ⟨m :: before, after, rfl, hafter⟩
    · exact ⟨[], ms, rfl, hms⟩

theorem IsLast.mem {ms : List (String × α)} (h : IsLast ms key a) : (key, a) ∈ ms := by
  obtain ⟨before, after, rfl, -⟩ := h
  simp

theorem get?_foldl_put_eq_some_iff {ms : List (String × α)} {t : Table α} :
    (ms.foldl (fun t m => t.put m.1 m.2) t).get? key = some a ↔
      IsLast ms key a ∨ key ∉ keys ms ∧ t.get? key = some a := by
  induction ms generalizing t with
  | nil =>
      refine ⟨fun h => Or.inr ⟨List.not_mem_nil, h⟩, ?_⟩
      rintro (h | ⟨-, h⟩)
      · cases h.mem
      · exact h
  | cons m ms ih =>
      obtain ⟨k, b⟩ := m
      have hkeys : keys ((k, b) :: ms) = k :: keys ms := rfl
      rw [List.foldl_cons, ih, isLast_cons_iff, get?_put, hkeys]
      by_cases h : k = key
      · subst h
        simp [and_comm]
      · simp [h, Ne.symm h]

/-- Each key has the value it had last. -/
theorem get?_latest_eq_some_iff {ms : List (String × α)} :
    (latest ms).get? key = some a ↔ IsLast ms key a := by
  rw [latest, get?_foldl_put_eq_some_iff]
  simp

theorem mem_latest_iff {ms : List (String × α)} : (key, a) ∈ latest ms ↔ IsLast ms key a := by
  rw [← get?_latest_eq_some_iff, get?_eq_some_iff (nodup_keys_latest ms)]

theorem foldl_put_of_nodup {ms : List (String × α)} {t : Table α} (h : (keys (t ++ ms)).Nodup) :
    ms.foldl (fun t m => t.put m.1 m.2) t = t ++ ms := by
  induction ms generalizing t with
  | nil => exact (List.append_nil t).symm
  | cons m ms ih =>
      obtain ⟨k, b⟩ := m
      have hsplit : t ++ (k, b) :: ms = t ++ [(k, b)] ++ ms := by simp
      rw [hsplit] at h ⊢
      have hnew : k ∉ keys t := by
        rw [keys, List.map_append, List.map_append] at h
        exact (nodup_append_singleton.mp h.of_append_left).2
      rw [List.foldl_cons, put_of_get?_eq_none (get?_eq_none_iff.mpr hnew), ih h]

/-- Nothing is lost where no key is repeated. -/
theorem latest_of_nodup {ms : List (String × α)} (h : (keys ms).Nodup) : latest ms = ms :=
  foldl_put_of_nodup (t := []) h

end Table

namespace Json

variable {α β σ τ : Type}

/-! ## Two readers in step -/

/-- What a reader finds, seen through a function of it. -/
theorem readMembers_map (φ : σ → τ) {onMember : String → σ → Reader σ}
    {onMember' : String → τ → Reader τ}
    (step : ∀ key s cs, onMember' key (φ s) cs = (onMember key s cs).map (Prod.map φ id))
    (first : Bool) (s : σ) (cs : List Char) :
    readMembers onMember' first (φ s) cs
      = (readMembers onMember first s cs).map (Prod.map φ id) := by
  fun_induction readMembers onMember first s cs with
  | case1 first s cs e hnext => rw [readMembers, hnext]; rfl
  | case2 first s cs rest hnext => rw [readMembers, hnext]; rfl
  | case3 first s cs key rest hnext e hmember =>
      rw [readMembers, hnext]
      simp only [step, hmember]
      rfl
  | case4 first s cs key rest hnext s' inner hmember e hrest ih =>
      rw [readMembers, hnext]
      simp only [step, hmember, Except.map, Prod.map, id, ih, hrest]
  | case5 first s cs key rest hnext s' inner hmember s'' last hrest ih =>
      rw [readMembers, hnext]
      simp only [step, hmember, Except.map, Prod.map, id, ih, hrest]

/-- An object with any keys and all its members, in order. -/
def members (value : Reader α) : Reader (List (String × α)) := fun cs =>
  match nextToken cs with
  | some ('{', rest) => do
    let (ms, inner) ← readMembers onMember true [] rest.val
    .ok (ms, rest.within inner)
  | _ => .error (mismatch "a map" cs)
where
  onMember (key : String) (ms : List (String × α)) : Reader (List (String × α)) := fun cs => do
    let (a, rest) ← memberValue value cs
    .ok (ms ++ [(key, a)], rest)

/-- A table is what its members come to. -/
theorem table_eq_members (value : Reader α) (cs : List Char) :
    table value cs = (members value cs).map (Prod.map Table.latest id) := by
  have hstep : ∀ key ms cs, table.onMember value key (Table.latest ms) cs
      = (members.onMember value key ms cs).map (Prod.map Table.latest id) := by
    intro key ms cs
    simp only [table.onMember, members.onMember]
    cases memberValue value cs with
    | error e => rfl
    | ok found => simp only [bind_ok, Except.map, Prod.map, Table.latest_append_singleton, id]
  have hread : ∀ rest : Rest cs, readMembers (table.onMember value) true [] rest.val
      = (readMembers (members.onMember value) true [] rest.val).map (Prod.map Table.latest id) :=
    fun rest => readMembers_map Table.latest hstep true [] rest.val
  by_cases hbrace : ∃ rest, nextToken cs = some ('{', rest)
  · obtain ⟨rest, htoken⟩ := hbrace
    simp only [table, members, htoken, hread]
    cases readMembers (members.onMember value) true [] rest.val <;> rfl
  · have htable : table value cs = .error (mismatch "a map" cs) := by
      unfold table
      split
      · exact absurd ⟨_, ‹_›⟩ hbrace
      · rfl
    have hmembers : members value cs = .error (mismatch "a map" cs) := by
      unfold members
      split
      · exact absurd ⟨_, ‹_›⟩ hbrace
      · rfl
    rw [htable, hmembers]
    rfl

/-- A field of one record is that field of another one, seen through a function of what is
known. -/
structure Field.Simulates (φ : σ → τ) (f : Field σ) (g : Field τ) : Prop where
  name : f.name = g.name
  required : f.required = g.required
  isSet : ∀ s, f.isSet s = g.isSet (φ s)
  read : ∀ s cs, g.read (φ s) cs = (f.read s cs).map (Prod.map φ id)

/-- A field that is kept as an optional value, where the values of the one record are a function of
those of the other one. -/
theorem Field.simulates_of {name : String} {required : Bool} {f : α → β} {φ : σ → τ}
    {value : Reader α} {value' : Reader β} {get : σ → Option α} {get' : τ → Option β}
    {set : σ → α → σ} {set' : τ → β → τ}
    (hvalue : ∀ cs, value' cs = (value cs).map (Prod.map f id))
    (hget : ∀ s, get' (φ s) = (get s).map f) (hset : ∀ s a, set' (φ s) (f a) = φ (set s a)) :
    Field.Simulates φ (.of name required value get set) (.of name required value' get' set') where
  name := rfl
  required := rfl
  isSet s := by
    show (get s).isSome = (get' (φ s)).isSome
    rw [hget, Option.isSome_map]
  read s cs := by
    simp only [Field.of, hvalue]
    cases value cs with
    | error e => rfl
    | ok found => simp only [Except.map, bind_ok, Prod.map, id, hset]

theorem find?_of_forall₂ {R : α → β → Prop} {p : α → Bool} {q : β → Bool} {as : List α}
    {bs : List β} (h : List.Forall₂ R as bs) (same : ∀ a b, R a b → p a = q b) :
    as.find? p = none ∧ bs.find? q = none
      ∨ ∃ a b, R a b ∧ as.find? p = some a ∧ bs.find? q = some b := by
  induction h with
  | nil => exact Or.inl ⟨rfl, rfl⟩
  | @cons a b as bs hR _ ih =>
      rw [List.find?_cons, List.find?_cons, ← same a b hR]
      cases p a with
      | true => exact Or.inr ⟨a, b, hR, rfl, rfl⟩
      | false => exact ih

namespace Shape

variable {φ : σ → τ} {shape : Shape σ} {shape' : Shape τ}

/-- Two forms of records that differ only in what is known of the fields that have been read. -/
structure Simulates (φ : σ → τ) (shape : Shape σ) (shape' : Shape τ) : Prop where
  name : shape.name = shape'.name
  fields : List.Forall₂ (Field.Simulates φ) shape.fields shape'.fields

theorem Simulates.onMember (h : shape.Simulates φ shape') (key : String) (s : σ) (cs : List Char) :
    shape'.onMember key (φ s) cs = (shape.onMember key s cs).map (Prod.map φ id) := by
  rw [Shape.onMember, Shape.onMember]
  rcases find?_of_forall₂ (p := fun f => f.name = key) (q := fun f => f.name = key) h.fields
    (fun f g hfg => by rw [hfg.name]) with ⟨hf, hg⟩ | ⟨f, g, hfg, hf, hg⟩
  · rw [hf, hg]
    simp only []
    cases memberValue skipValue cs <;> rfl
  · rw [hf, hg]
    simp only [← hfg.isSet]
    split
    · rfl
    · simp only [memberValue]
      cases readColon cs with
      | error e => rfl
      | ok colon =>
          simp only [bind_ok, hfg.read]
          cases f.read s colon.val <;> rfl

theorem Simulates.checkComplete (h : shape.Simulates φ shape') (s : σ) :
    shape'.checkComplete (φ s) = shape.checkComplete s := by
  rw [Shape.checkComplete, Shape.checkComplete]
  rcases find?_of_forall₂ (p := fun f => f.required && !f.isSet s)
    (q := fun f => f.required && !f.isSet (φ s)) h.fields
    (fun f g hfg => by rw [hfg.required, hfg.isSet]) with ⟨hf, hg⟩ | ⟨f, g, hfg, hf, hg⟩
  · rw [hf, hg]
  · rw [hf, hg]
    simp only [hfg.name]

theorem any_required_eq {fields : List (Field σ)} {fields' : List (Field τ)}
    (h : List.Forall₂ (Field.Simulates φ) fields fields') :
    fields'.any Field.required = fields.any Field.required := by
  induction h with
  | nil => rfl
  | cons hfg _ ih => rw [List.any_cons, List.any_cons, ih, hfg.required]

theorem Simulates.readFields (h : shape.Simulates φ shape') {fields : List (Field σ)}
    {fields' : List (Field τ)} (hfields : List.Forall₂ (Field.Simulates φ) fields fields')
    (index : Nat) (s : σ) (cs : List Char) :
    shape'.readFields fields' index (φ s) cs
      = (shape.readFields fields index s cs).map (Prod.map φ id) := by
  have hlist : shape'.listName = shape.listName := by
    rw [listName, listName, h.name, h.fields.length_eq]
  induction hfields generalizing index s cs with
  | nil =>
      simp only [Shape.readFields]
      cases endList cs <;> rfl
  | @cons f g fields fields' hfg hfields ih =>
      have hrequired : (g :: fields').any Field.required = (f :: fields).any Field.required :=
        any_required_eq (.cons hfg hfields)
      simp only [Shape.readFields]
      cases nextElement (index == 0) cs with
      | error e => rfl
      | ok next =>
          cases next with
          | done rest =>
              simp only [bind_ok, hrequired, hlist]
              split <;> rfl
          | element start =>
              simp only [bind_ok, hfg.read]
              cases f.read s start.val with
              | error e => rfl
              | ok found =>
                  simp only [Except.map, bind_ok, Prod.map, id, ih]
                  cases shape.readFields fields (index + 1) found.1 found.2.val <;> rfl

/-- A record is read to what the other one is read to, seen through the function. -/
theorem Simulates.reader_map (h : shape.Simulates φ shape') (start : σ) (cs : List Char) :
    shape'.reader (φ start) cs = (shape.reader start cs).map (Prod.map φ id) := by
  unfold reader
  split
  · rename_i rest _
    rw [readMembers_map φ h.onMember]
    cases readMembers shape.onMember true start rest.val with
    | error e => rfl
    | ok found =>
        simp only [Except.map, bind_ok, Prod.map, id, h.checkComplete]
        cases shape.checkComplete found.1 <;> rfl
  · rename_i rest _
    rw [h.readFields h.fields]
    cases shape.readFields shape.fields 0 start rest.val <;> rfl
  · rw [h.name]
    rfl

end Shape

end Json

end CurriedTypings
