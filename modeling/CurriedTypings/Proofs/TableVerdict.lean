import CurriedTypings.Proofs.ArityNumeral
import CurriedTypings.Proofs.RecordDefects
import CurriedTypings.Tables

/-!
# What tables come to

`Verdict` says without a loop what a store built from tables is, or why there is none.
Three stages follow each other, and each is reached only if the ones before it find no
fault:

- the main table has a `GroupDefect`: a key that denotes no arity, or a name that the
  table lists before, whichever the scan of its groups meets first;
- an auxiliary table has an entry that the main table does not list;
- the records that the tables describe are stored, or refused for a defect of their
  own.

Every stage of the construction is a loop over what the stages before it have left, so
each is related to its case by what a prefix of the loop has established: up to the
first fault of the main table, the functions declared are exactly those listed
(`Lists`), under distinct names.
-/

namespace CurriedTypings

namespace Tables

variable {groups : Table (List String)} {listed declared : Table Nat} {e : MetadataError}

/-! ## The main table -/

/-- Names under one arity. -/
def entriesOf (arity : Nat) (names : List String) : Table Nat := names.map fun name => (name, arity)

/-- The functions that groups list, with the arities that their keys denote, in table order. -/
inductive Lists : Table (List String) → Table Nat → Prop
  | nil : Lists [] []
  | cons {key : String} {names : List String} {arity : Nat} {groups : Table (List String)}
      {listed : Table Nat} (denotes : ArityKey.Denotes key arity) (rest : Lists groups listed) :
      Lists ((key, names) :: groups) (entriesOf arity names ++ listed)

/-- The first fault of the main table. -/
inductive GroupDefect (groups : Table (List String)) : MetadataError → Prop
  | badKey {before after : Table (List String)} {key : String} {names : List String}
      {listed : Table Nat} (split : groups = before ++ (key, names) :: after)
      (lists : Lists before listed) (distinct : listed.keys.Nodup)
      (unreadable : ∀ arity, ¬ ArityKey.Denotes key arity) :
      GroupDefect groups (.invalidArityKey key)
  | repeated {before after : Table (List String)} {key name : String}
      {earlier later : List String} {listed : Table Nat} {first second : Nat}
      (split : groups = before ++ (key, earlier ++ name :: later) :: after)
      (lists : Lists before listed) (denotes : ArityKey.Denotes key second)
      (distinct : (listed ++ entriesOf second earlier).keys.Nodup)
      (again : (name, first) ∈ listed ++ entriesOf second earlier) :
      GroupDefect groups (.duplicateDeclaration name first second)

theorem keys_append (t u : Table Nat) : (t ++ u).keys = t.keys ++ u.keys := List.map_append

theorem keys_entriesOf (arity : Nat) (names : List String) :
    (entriesOf arity names).keys = names := by
  rw [entriesOf, Table.keys, List.map_map]
  exact List.map_id names

/-- The functions listed are those of one group after the other. -/
theorem Lists.keys_eq (h : Lists groups listed) : listed.keys = groups.flatMap Prod.snd := by
  induction h with
  | nil => rfl
  | cons _ _ ih => rw [keys_append, keys_entriesOf, ih, List.flatMap_cons]

theorem nodup_keys_of_append {t u : Table Nat} (h : (t ++ u).keys.Nodup) : t.keys.Nodup := by
  rw [keys_append] at h
  exact h.of_append_left

theorem nodup_keys_snoc {arity : Nat} {name : String} :
    (declared ++ entriesOf arity [name]).keys.Nodup ↔
      declared.keys.Nodup ∧ name ∉ declared.keys := by
  rw [keys_append, keys_entriesOf]
  exact nodup_append_singleton

theorem Lists.snoc (h : Lists groups listed) {key : String} {names : List String} {arity : Nat}
    (denotes : ArityKey.Denotes key arity) :
    Lists (groups ++ [(key, names)]) (listed ++ entriesOf arity names) := by
  induction h with
  | nil =>
      have hgroup : Lists [(key, names)] (entriesOf arity names ++ []) := .cons denotes .nil
      rwa [List.append_nil] at hgroup
  | cons head rest ih =>
      rw [List.cons_append, List.append_assoc]
      exact .cons head ih

/-- Adds one name of a group, unless the main table lists it before. -/
def declareName (arity : Nat) (declared : Table Nat) (name : String) :
    Except MetadataError (Table Nat) :=
  match declared.get? name with
  | some first => .error (.duplicateDeclaration name first arity)
  | none => .ok (declared ++ [(name, arity)])

theorem declareNames_eq_foldlM (arity : Nat) : ∀ (names : List String) (declared : Table Nat),
    declareNames arity declared names = names.foldlM (declareName arity) declared
  | [], declared => rfl
  | name :: rest, declared => by
      rw [declareNames, List.foldlM_cons, declareName]
      cases declared.get? name with
      | some first => rfl
      | none => exact declareNames_eq_foldlM arity rest _

theorem declareName_eq_ok_iff {arity : Nat} {declared' : Table Nat} {name : String} :
    declareName arity declared name = .ok declared' ↔
      name ∉ declared.keys ∧ declared' = declared ++ entriesOf arity [name] := by
  rw [declareName, ← Table.get?_eq_none_iff]
  cases declared.get? name with
  | some first => simp
  | none => simp [entriesOf, eq_comm]

theorem declareName_eq_error_iff (distinct : declared.keys.Nodup) {arity : Nat} {name : String} :
    declareName arity declared name = .error e ↔
      ∃ first, (name, first) ∈ declared ∧ e = .duplicateDeclaration name first arity := by
  simp only [← Table.get?_eq_some_iff distinct, declareName]
  cases declared.get? name with
  | some first => simp [eq_comm]
  | none => simp

/-- The names of a group are added one after the other as long as they are new. -/
theorem declareNames_eq_ok_iff (distinct : declared.keys.Nodup) {arity : Nat}
    {declared' : Table Nat} {names : List String} :
    declareNames arity declared names = .ok declared' ↔
      declared' = declared ++ entriesOf arity names ∧ declared'.keys.Nodup := by
  rw [declareNames_eq_foldlM]
  induction names generalizing declared with
  | nil =>
      constructor
      · intro h
        obtain rfl := Except.ok.inj h
        exact ⟨(List.append_nil _).symm, distinct⟩
      · rintro ⟨rfl, -⟩
        exact congrArg Except.ok (List.append_nil _).symm
  | cons name rest ih =>
      have hsplit : declared ++ entriesOf arity (name :: rest)
          = (declared ++ entriesOf arity [name]) ++ entriesOf arity rest := by
        simp [entriesOf]
      have hnew : name ∉ declared.keys → (declared ++ entriesOf arity [name]).keys.Nodup :=
        fun hname => nodup_keys_snoc.mpr ⟨distinct, hname⟩
      rw [List.foldlM_cons, bind_eq_ok_iff, hsplit]
      simp only [declareName_eq_ok_iff]
      constructor
      · rintro ⟨t, ⟨hname, rfl⟩, h⟩
        exact (ih (hnew hname)).mp h
      · rintro ⟨hdeclared, hnodup⟩
        have hname : name ∉ declared.keys :=
          (nodup_keys_snoc.mp (nodup_keys_of_append (hdeclared ▸ hnodup))).2
        exact ⟨_, ⟨hname, rfl⟩, (ih (hnew hname)).mpr ⟨hdeclared, hnodup⟩⟩

theorem declareNames_eq_error_iff (distinct : declared.keys.Nodup) {arity : Nat}
    {names : List String} : declareNames arity declared names = .error e ↔
      ∃ earlier name later first, names = earlier ++ name :: later
        ∧ (declared ++ entriesOf arity earlier).keys.Nodup
        ∧ (name, first) ∈ declared ++ entriesOf arity earlier
        ∧ e = .duplicateDeclaration name first arity := by
  rw [declareNames_eq_foldlM, foldlM_eq_error_iff]
  simp only [← declareNames_eq_foldlM]
  constructor
  · rintro ⟨earlier, name, later, t, hsplit, hearlier, hname⟩
    obtain ⟨rfl, hnodup⟩ := (declareNames_eq_ok_iff distinct).mp hearlier
    obtain ⟨first, hfirst, rfl⟩ := (declareName_eq_error_iff hnodup).mp hname
    exact ⟨earlier, name, later, first, hsplit, hnodup, hfirst, rfl⟩
  · rintro ⟨earlier, name, later, first, hsplit, hnodup, hfirst, rfl⟩
    exact ⟨earlier, name, later, _, hsplit, (declareNames_eq_ok_iff distinct).mpr ⟨rfl, hnodup⟩,
      (declareName_eq_error_iff hnodup).mpr ⟨first, hfirst, rfl⟩⟩

theorem declareGroup_of_denotes {key : String} {names : List String} {arity : Nat}
    (h : ArityKey.Denotes key arity) :
    declareGroup declared (key, names) = declareNames arity declared names := by
  simp only [declareGroup, ArityKey.read?_eq_some_iff.mpr h]

theorem declareGroup_of_unreadable {key : String} {names : List String}
    (h : ∀ arity, ¬ ArityKey.Denotes key arity) :
    declareGroup declared (key, names) = .error (.invalidArityKey key) := by
  have hread : ArityKey.read? key = none :=
    Option.eq_none_iff_forall_not_mem.mpr fun arity hread => h arity (ArityKey.read?_eq_some_iff.mp hread)
  simp only [declareGroup, hread]

theorem denotes_or_unreadable (key : String) :
    (∃ arity, ArityKey.Denotes key arity) ∨ ∀ arity, ¬ ArityKey.Denotes key arity := by
  by_cases h : ∃ arity, ArityKey.Denotes key arity
  · exact Or.inl h
  · exact Or.inr fun arity harity => h ⟨arity, harity⟩

theorem lists_of_foldlM (h : groups.foldlM declareGroup [] = .ok declared) :
    Lists groups declared ∧ declared.keys.Nodup := by
  refine foldlM_invariant (P := fun done t => Lists done t ∧ t.keys.Nodup) ?_
    ⟨.nil, List.nodup_nil⟩ h
  rintro done ⟨key, names⟩ t t' ⟨hlists, hnodup⟩ hgroup
  rcases denotes_or_unreadable key with ⟨arity, hdenotes⟩ | hunreadable
  · rw [declareGroup_of_denotes hdenotes, declareNames_eq_ok_iff hnodup] at hgroup
    obtain ⟨rfl, hnodup⟩ := hgroup
    exact ⟨hlists.snoc hdenotes, hnodup⟩
  · rw [declareGroup_of_unreadable hunreadable] at hgroup
    cases hgroup

theorem foldlM_declareGroup_ok (h : Lists groups listed) :
    ∀ {declared : Table Nat}, (declared ++ listed).keys.Nodup →
      groups.foldlM declareGroup declared = .ok (declared ++ listed) := by
  induction h with
  | nil =>
      intro declared _
      exact congrArg Except.ok (List.append_nil _).symm
  | @cons key names arity groups listed denotes rest ih =>
      intro declared hnodup
      rw [← List.append_assoc] at hnodup ⊢
      have hfirst := nodup_keys_of_append hnodup
      rw [List.foldlM_cons, declareGroup_of_denotes denotes,
        (declareNames_eq_ok_iff (nodup_keys_of_append hfirst)).mpr ⟨rfl, hfirst⟩, bind_ok, ih hnodup]

/-- The functions declared are those listed, where no name is listed twice. -/
theorem declarations_eq_ok_iff {t : Tables} :
    t.declarations = .ok declared ↔ Lists t.groups declared ∧ declared.keys.Nodup :=
  ⟨lists_of_foldlM, fun h => foldlM_declareGroup_ok h.1 h.2⟩

theorem declarations_eq_error_iff {t : Tables} :
    t.declarations = .error e ↔ GroupDefect t.groups e := by
  rw [declarations, foldlM_eq_error_iff]
  constructor
  · rintro ⟨before, ⟨key, names⟩, after, listed, hsplit, hbefore, hgroup⟩
    obtain ⟨hlists, hnodup⟩ := lists_of_foldlM hbefore
    rcases denotes_or_unreadable key with ⟨arity, hdenotes⟩ | hunreadable
    · rw [declareGroup_of_denotes hdenotes, declareNames_eq_error_iff hnodup] at hgroup
      obtain ⟨earlier, name, later, first, rfl, hdistinct, hagain, rfl⟩ := hgroup
      exact .repeated hsplit hlists hdenotes hdistinct hagain
    · rw [declareGroup_of_unreadable hunreadable] at hgroup
      obtain rfl := Except.error.inj hgroup
      exact .badKey hsplit hlists hnodup hunreadable
  · intro h
    cases h with
    | badKey split lists distinct unreadable =>
        exact ⟨_, _, _, _, split, foldlM_declareGroup_ok lists distinct,
          declareGroup_of_unreadable unreadable⟩
    | @repeated before after key name earlier later listed first second split lists denotes
        distinct again =>
        have hlisted := nodup_keys_of_append distinct
        refine ⟨_, _, _, listed, split, foldlM_declareGroup_ok lists hlisted, ?_⟩
        rw [declareGroup_of_denotes denotes, declareNames_eq_error_iff hlisted]
        exact ⟨earlier, name, later, first, rfl, distinct, again, rfl⟩

/-! ## Auxiliary tables -/

/-- The keys that have to be listed in the main table, in the order in which they are checked. -/
def entryKeys (t : Tables) : List (TableName × String) :=
  t.spreads.keys.map (.methodSpread, ·) ++ t.iterateeArities.keys.map (.iterateeAry, ·)
    ++ t.returnShapes.keys.map (.returnShape, ·)

/-- Refuses the first key that is not declared, whatever table it is from. -/
def checkKeys (declared : Table Nat) (keys : List (TableName × String)) :
    Except MetadataError Unit :=
  match keys.find? fun key => key.2 ∉ declared.keys with
  | some (table, name) => .error (.unknownTableEntry table name)
  | none => .ok ()

theorem checkEntries_eq_checkKeys {α : Type} (table : TableName) (entries : Table α) :
    checkEntries declared table entries = checkKeys declared (entries.keys.map (table, ·)) := by
  have hunknown : ∀ name, (declared.get? name).isNone = decide (name ∉ declared.keys) := by
    intro name
    rw [Bool.eq_iff_iff, Option.isNone_iff_eq_none, Table.get?_eq_none_iff, decide_eq_true_eq]
  simp only [checkEntries, checkKeys, hunknown, List.find?_map, Function.comp_def]
  cases entries.keys.find? fun name => name ∉ declared.keys <;> rfl

theorem checkKeys_append (xs ys : List (TableName × String)) :
    checkKeys declared (xs ++ ys) = checkKeys declared xs >>= fun _ => checkKeys declared ys := by
  simp only [checkKeys, List.find?_append]
  cases xs.find? fun key => key.2 ∉ declared.keys <;> rfl

theorem checkKeys_eq_ok_iff {keys : List (TableName × String)} :
    checkKeys declared keys = .ok () ↔ ∀ key ∈ keys, key.2 ∈ declared.keys := by
  have hnone : (keys.find? fun key => decide (key.2 ∉ declared.keys)) = none ↔
      ∀ key ∈ keys, key.2 ∈ declared.keys := by
    rw [List.find?_eq_none]
    simp
  rw [← hnone, checkKeys]
  cases keys.find? fun key => decide (key.2 ∉ declared.keys) with
  | none => simp
  | some key => simp

theorem checkKeys_eq_error_iff {keys : List (TableName × String)} :
    checkKeys declared keys = .error e ↔ ∃ before table name after,
      keys = before ++ (table, name) :: after ∧ (∀ key ∈ before, key.2 ∈ declared.keys)
        ∧ name ∉ declared.keys ∧ e = .unknownTableEntry table name := by
  have hfirst : ∀ table name, (keys.find? fun key => decide (key.2 ∉ declared.keys))
      = some (table, name) ↔ ∃ before after, keys = before ++ (table, name) :: after
        ∧ (∀ key ∈ before, key.2 ∈ declared.keys) ∧ name ∉ declared.keys := by
    intro table name
    rw [List.find?_eq_some_iff_append, decide_eq_true_eq]
    constructor
    · rintro ⟨hunknown, before, after, hsplit, hbefore⟩
      exact ⟨before, after, hsplit, fun key hkey => by simpa using hbefore key hkey, hunknown⟩
    · rintro ⟨before, after, hsplit, hbefore, hunknown⟩
      exact ⟨hunknown, before, after, hsplit, fun key hkey => by simpa using hbefore key hkey⟩
  constructor
  · intro h
    rw [checkKeys] at h
    split at h
    · rename_i table name hfind
      obtain ⟨before, after, hsplit, hbefore, hunknown⟩ := (hfirst table name).mp hfind
      exact ⟨before, table, name, after, hsplit, hbefore, hunknown, (Except.error.inj h).symm⟩
    · cases h
  · rintro ⟨before, table, name, after, hsplit, hbefore, hunknown, rfl⟩
    rw [checkKeys, (hfirst table name).mpr ⟨before, after, hsplit, hbefore, hunknown⟩]

/-! ## Records -/

/-- The record of a function that the main table lists, as the other tables have it. -/
structure Describes (t : Tables) (declaration : String × Nat) (f : FunctionRecord) : Prop where
  name : f.name = declaration.1
  arity : f.arity = declaration.2
  aliases : f.aliases = distinct ((t.aliasesByTarget.get? declaration.1).getD [])
  spreadStart : f.spreadStart = (t.spreads.get? declaration.1).map Spread.start
  iterateeArity : f.iterateeArity = t.iterateeArities.get? declaration.1
  returnShape : f.returnShape = t.returnShapes.get? declaration.1

theorem describes_iff {t : Tables} {declaration : String × Nat} {f : FunctionRecord} :
    t.Describes declaration f ↔ f = t.recordOf t.aliasesByTarget declaration := by
  constructor
  · rintro ⟨hname, harity, haliases, hspread, hiteratee, hshape⟩
    cases f
    simp only at hname harity haliases hspread hiteratee hshape
    rw [hname, harity, haliases, hspread, hiteratee, hshape, recordOf, addNew_nil_left]
  · rintro rfl
    exact ⟨rfl, rfl, addNew_nil_left _, rfl, rfl, rfl⟩

theorem forall₂_describes_iff {t : Tables} : ∀ {declared : Table Nat} {records : List FunctionRecord},
    List.Forall₂ t.Describes declared records ↔
      records = declared.map (t.recordOf t.aliasesByTarget)
  | [], records => by rw [List.forall₂_nil_left_iff, List.map_nil]
  | declaration :: declared, records => by
      rw [List.forall₂_cons_left_iff, List.map_cons]
      constructor
      · rintro ⟨f, rest, hf, hrest, rfl⟩
        rw [describes_iff.mp hf, forall₂_describes_iff.mp hrest]
      · rintro rfl
        exact ⟨_, _, describes_iff.mpr rfl, forall₂_describes_iff.mpr rfl, rfl⟩

theorem map_name_recordOf (t : Tables) (declared : Table Nat) :
    (declared.map (t.recordOf t.aliasesByTarget)).map FunctionRecord.name = declared.keys := by
  rw [List.map_map]
  rfl

/-! ## The verdict -/

/-- What a store built from tables is, or why there is none. -/
inductive Verdict (t : Tables) : Except MetadataError Store → Prop
  | group {e : MetadataError} (defect : GroupDefect t.groups e) : Verdict t (.error e)
  | entry {listed : Table Nat} {before after : List (TableName × String)} {table : TableName}
      {name : String} (lists : Lists t.groups listed) (distinct : listed.keys.Nodup)
      (split : t.entryKeys = before ++ (table, name) :: after)
      (known : ∀ key ∈ before, key.2 ∈ listed.keys) (unknown : name ∉ listed.keys) :
      Verdict t (.error (.unknownTableEntry table name))
  | records {listed : Table Nat} {records : List FunctionRecord} (lists : Lists t.groups listed)
      (distinct : listed.keys.Nodup) (known : ∀ key ∈ t.entryKeys, key.2 ∈ listed.keys)
      (described : List.Forall₂ t.Describes listed records) : Verdict t (Store.ofRecords records)

theorem ofTables_eq (t : Tables) : Store.ofTables t = (do
    let declared ← t.declarations
    checkKeys declared t.entryKeys
    Store.ofRecords (declared.map (t.recordOf t.aliasesByTarget))) := by
  rw [Store.ofTables]
  simp only [checkEntries_eq_checkKeys, entryKeys, checkKeys_append, bind_assoc]

theorem verdict_ofTables (t : Tables) : t.Verdict (Store.ofTables t) := by
  rw [ofTables_eq]
  cases hdeclared : t.declarations with
  | error e => exact .group (declarations_eq_error_iff.mp hdeclared)
  | ok declared =>
      obtain ⟨hlists, hdistinct⟩ := declarations_eq_ok_iff.mp hdeclared
      rw [bind_ok]
      cases hkeys : checkKeys declared t.entryKeys with
      | error e =>
          obtain ⟨before, table, name, after, hsplit, hknown, hunknown, rfl⟩ :=
            checkKeys_eq_error_iff.mp hkeys
          exact .entry hlists hdistinct hsplit hknown hunknown
      | ok =>
          exact .records hlists hdistinct (checkKeys_eq_ok_iff.mp hkeys)
            (forall₂_describes_iff.mpr rfl)

theorem ofTables_of_verdict {t : Tables} {r : Except MetadataError Store} (h : t.Verdict r) :
    Store.ofTables t = r := by
  rw [ofTables_eq]
  cases h with
  | group defect => rw [declarations_eq_error_iff.mpr defect, bind_error]
  | entry lists distinct split known unknown =>
      rw [declarations_eq_ok_iff.mpr ⟨lists, distinct⟩, bind_ok,
        checkKeys_eq_error_iff.mpr ⟨_, _, _, _, split, known, unknown, rfl⟩, bind_error]
  | records lists distinct known described =>
      rw [declarations_eq_ok_iff.mpr ⟨lists, distinct⟩, bind_ok, checkKeys_eq_ok_iff.mpr known,
        bind_ok, forall₂_describes_iff.mp described]

end Tables

/-- **What tables come to.** A store built from tables is exactly what the verdict says: the first
fault of the main table, else the first auxiliary entry that it does not list, else the outcome
of storing the records that the tables describe. The names of these records are never found to
be declared twice. -/
theorem Store.ofTables_verdict (t : Tables) :
    (∀ r, Store.ofTables t = r ↔ t.Verdict r)
      ∧ ∀ listed records, Tables.Lists t.groups listed → listed.keys.Nodup →
          List.Forall₂ t.Describes listed records → ∀ name first second,
            Store.ofRecords records ≠ .error (.duplicateDeclaration name first second) := by
  refine ⟨fun r => ⟨?_, Tables.ofTables_of_verdict⟩, fun listed records _ hdistinct hdescribed => ?_⟩
  · rintro rfl
    exact Tables.verdict_ofTables t
  · refine Store.ofRecords_ne_duplicateDeclaration ?_
    rw [Tables.forall₂_describes_iff.mp hdescribed, Tables.map_name_recordOf]
    exact hdistinct

/-- A name given twice under one arity counts before a later key that cannot be read and before
auxiliary entries. -/
example : Store.ofTables
    { groups := [("0", []), ("2", ["map"]), (" +02 ", ["map"]), ("two", [])]
      spreads := [("none", { start := 1 })] }
      = .error (.duplicateDeclaration "map" 2 2) := by
  rfl

end CurriedTypings
