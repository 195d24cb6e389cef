import CurriedTypings.Distinct

/-!
# Tables

Values by name. A table lists every key once, in the order in which the keys were
first given; a key that is given again keeps its place and gets the new value.
-/

namespace CurriedTypings

abbrev Table (α : Type) := List (String × α)

namespace Table

variable {α : Type}

def get? (t : Table α) (key : String) : Option α := t.lookup key

def contains (t : Table α) (key : String) : Bool := (t.get? key).isSome

def keys (t : Table α) : List String := t.map Prod.fst

/-- Replaces the value of a key in its place, or adds the key at the end. -/
def alter (t : Table α) (key : String) (f : Option α → α) : Table α :=
  match t with
  | [] => [(key, f none)]
  | (k, v) :: rest => if k = key then (k, f (some v)) :: rest else (k, v) :: alter rest key f

def put (t : Table α) (key : String) (value : α) : Table α := alter t key fun _ => value

@[simp] theorem get?_nil (key : String) : get? ([] : Table α) key = none := rfl

theorem get?_cons (k : String) (v : α) (t : Table α) (key : String) :
    get? ((k, v) :: t) key = if k = key then some v else t.get? key := by
  by_cases h : k = key
  · subst h; simp [get?]
  · have hne : (key == k) = false := by simpa using Ne.symm h
    simp [get?, List.lookup_cons, hne, h]

theorem get?_alter (t : Table α) (k key : String) (f : Option α → α) :
    (t.alter k f).get? key = if k = key then some (f (t.get? k)) else t.get? key := by
  induction t with
  | nil => simp [alter, get?_cons]
  | cons p t ih =>
      obtain ⟨k', v⟩ := p
      simp only [alter]
      by_cases hk : k' = k
      · subst hk
        by_cases h : k' = key <;> simp [get?_cons, h]
      · by_cases h : k = key
        · subst h; simp [get?_cons, hk, ih]
        · simp [get?_cons, hk, ih, h]

theorem get?_put (t : Table α) (k key : String) (v : α) :
    (t.put k v).get? key = if k = key then some v else t.get? key :=
  get?_alter t k key _

/-- A new key goes to the end. -/
theorem put_of_get?_eq_none {t : Table α} {key : String} (h : t.get? key = none) (v : α) :
    t.put key v = t ++ [(key, v)] := by
  induction t with
  | nil => rfl
  | cons p t ih =>
      obtain ⟨k, w⟩ := p
      rw [get?_cons] at h
      split at h
      · cases h
      · rename_i hne
        rw [put, alter, if_neg hne, ← put, ih h]
        rfl

/-- A key that is given a value stays where it is, or goes to the end. -/
theorem keys_alter (t : Table α) (key : String) (f : Option α → α) :
    (t.alter key f).keys = insertNew t.keys key := by
  induction t with
  | nil => rfl
  | cons p t ih =>
      obtain ⟨k, v⟩ := p
      have hkeys : keys ((k, v) :: t) = k :: keys t := rfl
      rw [alter, hkeys]
      by_cases h : k = key
      · subst h
        rw [if_pos rfl, insertNew_of_mem List.mem_cons_self]
        rfl
      · have hcons : insertNew (k :: keys t) key = k :: insertNew (keys t) key := by
          by_cases hmem : key ∈ keys t <;> simp [insertNew, Ne.symm h, hmem]
        rw [if_neg h, hcons, ← ih]
        rfl

theorem keys_put (t : Table α) (key : String) (v : α) :
    (t.put key v).keys = insertNew t.keys key :=
  keys_alter t key _

theorem get?_eq_none_iff {t : Table α} {key : String} : t.get? key = none ↔ key ∉ t.keys := by
  induction t with
  | nil => simp [keys]
  | cons p t ih =>
      obtain ⟨k, v⟩ := p
      rw [get?_cons]
      by_cases h : k = key
      · simp [h, keys]
      · simp only [keys, List.map_cons, List.mem_cons, not_or] at ih ⊢
        simp [h, ih, Ne.symm h]

theorem get?_eq_some_iff {t : Table α} (distinct : t.keys.Nodup) {key : String} {v : α} :
    t.get? key = some v ↔ (key, v) ∈ t := by
  induction t with
  | nil => simp
  | cons p t ih =>
      obtain ⟨k, w⟩ := p
      obtain ⟨hk, hrest⟩ := List.nodup_cons.mp distinct
      rw [get?_cons, List.mem_cons]
      by_cases h : k = key
      · subst h
        have hnew : (k, v) ∉ t := fun hmem => hk (List.mem_map.mpr ⟨(k, v), hmem, rfl⟩)
        simp [hnew, eq_comm]
      · rw [if_neg h, ih hrest]
        simp [Ne.symm h]

/-- A table without repeated keys is known by its keys and what is found under them. -/
theorem eq_map_keys {t : Table α} (distinct : t.keys.Nodup) (other : α) :
    t = t.keys.map fun key => (key, (t.get? key).getD other) := by
  have hentry : ∀ entry ∈ t, (entry.1, (t.get? entry.1).getD other) = entry := by
    intro entry hmem
    rw [(get?_eq_some_iff distinct).mpr hmem, Option.getD_some]
  calc t = t.map id := (List.map_id t).symm
    _ = t.map fun entry => (entry.1, (t.get? entry.1).getD other) :=
        (List.map_congr_left hentry).symm
    _ = t.keys.map fun key => (key, (t.get? key).getD other) := by
        rw [keys, List.map_map]
        rfl

end Table

end CurriedTypings
