import CurriedTypings.Proofs.Json.Records
import CurriedTypings.Proofs.Json.Written
import CurriedTypings.Tables.Document

/-!
# Documents of tables

Tables are written as a record with a field for each of them, and may be written in many ways
(`Tables.Form`), in any case in one (`Tables.exists_writtenAs`). Whichever of them is chosen,
the document is read as these tables (`Tables.takes_reader`), so that a store is built from it
exactly as from the tables, and refused for the same reason.

Two conditions are on the tables and not on the document (`Tables.Representable`): no table
lists a key twice, and all numbers are in range. The main table is always written; any other
one may be left out if it is empty, and the flag of a spread argument if it is not set.
-/

namespace CurriedTypings

open Json

/-- A field that has to be written unless it has its default. -/
def defaulted {α : Type} (name : String) (form : α → List Char → Prop) (default a : α) : FieldForm :=
  ⟨name, form a, a ≠ default⟩

/-! ## Spread arguments -/

namespace Spread

def forms (s : Spread) : List FieldForm :=
  [⟨"start", NaturalForm s.start, True⟩, defaulted "afterRearg" BooleanForm false s.afterRearg]

def Form (s : Spread) : List Char → Prop := RecordForm s.forms

def known (s : Spread) (keys : List String) : Draft :=
  ⟨knownUnder "start" s.start keys, knownUnder "afterRearg" s.afterRearg keys⟩

theorem describes {s : Spread} (h : s.start < Nat.pow 2 64) :
    shape.Describes s.forms s.known where
  fields := by
    refine .cons ?_ (.cons ?_ .nil)
    · exact Field.reads_of (accepts_natural (Nat.le_refl _)) rfl (fun _ hform => ⟨h, hform⟩)
        (fun _ => trivial) (fun _ => rfl) fun keys => by
          simp [known, knownUnder_append_of_ne]
    · exact Field.reads_of accepts_boolean rfl (fun _ hform => hform) nofun (fun _ => rfl)
        fun keys => by simp [known, knownUnder_append_of_ne]
  others keys key hother := by
    simp only [forms, defaulted, List.forall_mem_cons] at hother
    obtain ⟨hstart, hafter, -⟩ := hother
    rw [known, knownUnder_append_of_ne hstart, knownUnder_append_of_ne hafter]
    rfl

theorem known_spread {s : Spread} {keys : List String}
    (h : ∀ f ∈ s.forms, f.needed → f.name ∈ keys) : (s.known keys).spread = s := by
  simp only [forms, defaulted, List.forall_mem_cons] at h
  obtain ⟨hstart, hafter, -⟩ := h
  rw [known, Draft.spread, getD_knownUnder fun _ => hstart trivial, getD_knownUnder hafter]

theorem exists_form (s : Spread) : ∃ cs, s.Form cs := by
  refine exists_recordForm (by simp [forms, defaulted]) ?_
  simp only [forms, defaulted, List.forall_mem_cons]
  exact ⟨exists_naturalForm s.start, exists_booleanForm s.afterRearg, by simp⟩

end Spread

theorem accepts_spread :
    Accepts Spread.reader fun s cs => s.start < Nat.pow 2 64 ∧ s.Form cs where
  starts := by
    rintro s cs ⟨-, members, hobject, -⟩
    exact Enclosed.starts hobject (by decide)
  takes := by
    rintro s cs ⟨hstart, hform⟩ ws rest hws -
    obtain ⟨keys, hneeded, hlt, hread⟩ := (Spread.describes hstart).takes_record hform hws rest
    refine ⟨hlt, ?_⟩
    change Spread.shape.reader {} _ = _ at hread
    simp only [Spread.reader, hread, bind_ok, Spread.known_spread hneeded]

/-! ## Tables -/

def ReturnShape.name : ReturnShape → String
  | .arrayOfResult => "arrayOfResult"
  | .result => "result"

def ReturnShape.Form (r : ReturnShape) : List Char → Prop := StringForm r.name

theorem ReturnShape.lookup_name (r : ReturnShape) : List.lookup r.name variants = some r := by
  cases r <;> decide

namespace Tables

/-- What documents can say: a value for each key, and numbers that are in range. -/
structure Representable (t : Tables) : Prop where
  groups : t.groups.keys.Nodup
  targetOf : t.targetOf.keys.Nodup
  aliasesOf : t.aliasesOf.keys.Nodup
  spreads : t.spreads.keys.Nodup
  iterateeArities : t.iterateeArities.keys.Nodup
  returnShapes : t.returnShapes.keys.Nodup
  starts : ∀ entry ∈ t.spreads, entry.2.start < Nat.pow 2 64
  arities : ∀ entry ∈ t.iterateeArities, entry.2 < Nat.pow 2 8

def forms (t : Tables) : List FieldForm :=
  [⟨"aryMethod", TableForm (ListForm StringForm) t.groups, True⟩,
    defaulted "aliasToReal" (TableForm StringForm) [] t.targetOf,
    defaulted "realToAlias" (TableForm (ListForm StringForm)) [] t.aliasesOf,
    defaulted "methodSpread" (TableForm Spread.Form) [] t.spreads,
    defaulted "iterateeAry" (TableForm NaturalForm) [] t.iterateeArities,
    defaulted "returnShape" (TableForm ReturnShape.Form) [] t.returnShapes]

def Form (t : Tables) : List Char → Prop := RecordForm t.forms

/-- A document that holds the tables, and nothing else but space. -/
def WrittenAs (t : Tables) (text : String) : Prop := Padded Form t text.toList

def known (t : Tables) (keys : List String) : Draft where
  groups := knownUnder "aryMethod" t.groups keys
  targetOf := knownUnder "aliasToReal" t.targetOf keys
  aliasesOf := knownUnder "realToAlias" t.aliasesOf keys
  spreads := knownUnder "methodSpread" t.spreads keys
  iterateeArities := knownUnder "iterateeAry" t.iterateeArities keys
  returnShapes := knownUnder "returnShape" t.returnShapes keys

/-- The form of tables in a document, for a way to read an object. -/
def shapeWith (object : {α : Type} → Reader α → Reader (List (String × α))) : Shape Draft where
  name := "struct MappingTables"
  fields :=
    [.of TableName.aryMethod.text true (object (list text)) Draft.groups
        fun d a => { d with groups := some a },
      .of TableName.aliasToReal.text false (object text) Draft.targetOf
        fun d a => { d with targetOf := some a },
      .of TableName.realToAlias.text false (object (list text)) Draft.aliasesOf
        fun d a => { d with aliasesOf := some a },
      .of TableName.methodSpread.text false (object Spread.reader) Draft.spreads
        fun d a => { d with spreads := some a },
      .of TableName.iterateeAry.text false (object (natural .byte)) Draft.iterateeArities
        fun d a => { d with iterateeArities := some a },
      .of TableName.returnShape.text false (object (variant ReturnShape.variants))
        Draft.returnShapes fun d a => { d with returnShapes := some a }]

/-- Reads tables as they are written, with every member of each object. -/
def memberReader : Reader Tables := fun cs => do
  let (d, rest) ← (shapeWith members).reader {} cs
  .ok (d.tables, rest)

/-- The tables that a document writes, with repeated keys. -/
def writtenIn (source : String) : Except MetadataError Tables :=
  match document memberReader source with
  | .ok t => .ok t
  | .error e => .error (.malformed e.message)

/-- The tables in which each key has the value it had last. -/
def latest (t : Tables) : Tables where
  groups := Table.latest t.groups
  targetOf := Table.latest t.targetOf
  aliasesOf := Table.latest t.aliasesOf
  spreads := Table.latest t.spreads
  iterateeArities := Table.latest t.iterateeArities
  returnShapes := Table.latest t.returnShapes

def Draft.latest (d : Draft) : Draft where
  groups := d.groups.map Table.latest
  targetOf := d.targetOf.map Table.latest
  aliasesOf := d.aliasesOf.map Table.latest
  spreads := d.spreads.map Table.latest
  iterateeArities := d.iterateeArities.map Table.latest
  returnShapes := d.returnShapes.map Table.latest

theorem Draft.tables_latest (d : Draft) : d.latest.tables = d.tables.latest := by
  have hgetD : ∀ {α : Type} (o : Option (List (String × α))),
      (o.map Table.latest).getD [] = Table.latest (o.getD []) := by
    intro α o
    cases o <;> rfl
  simp only [Draft.tables, Draft.latest, Tables.latest, hgetD]

theorem shape_simulates : (shapeWith members).Simulates Draft.latest shape where
  name := rfl
  fields := by
    refine .cons ?_ (.cons ?_ (.cons ?_ (.cons ?_ (.cons ?_ (.cons ?_ .nil)))))
    all_goals
      exact Field.simulates_of (table_eq_members _) (fun _ => rfl) fun _ _ => rfl

theorem reader_eq (cs : List Char) : reader cs = (memberReader cs).map (Prod.map latest id) := by
  have hshape := shape_simulates.reader_map {} cs
  change shape.reader {} cs = _ at hshape
  simp only [reader, memberReader, hshape]
  cases (shapeWith members).reader {} cs with
  | error e => rfl
  | ok found => simp only [Except.map, bind_ok, Prod.map, id, Draft.tables_latest]

/-- Reading a document loses what a repeated key replaces, and nothing else. -/
theorem ofDocument_eq_writtenIn (source : String) :
    ofDocument source = (writtenIn source).map latest := by
  rw [ofDocument, writtenIn, document, document, reader_eq]
  cases memberReader source.toList with
  | error e => rfl
  | ok found =>
      simp only [Except.map, bind_ok, Prod.map, id]
      cases readEnd found.2.val <;> rfl

/-- The numbers in the tables are those that documents can hold. -/
structure InRange (t : Tables) : Prop where
  starts : ∀ entry ∈ t.spreads, entry.2.start < Nat.pow 2 64
  arities : ∀ entry ∈ t.iterateeArities, entry.2 < Nat.pow 2 8

theorem describes {t : Tables} (h : t.InRange) : (shapeWith members).Describes t.forms t.known where
  fields := by
    refine .cons ?_ (.cons ?_ (.cons ?_ (.cons ?_ (.cons ?_ (.cons ?_ .nil)))))
    · exact Field.reads_of (accepts_members (accepts_list accepts_text)) rfl
        (fun _ hform => hform) (fun _ => trivial) (fun _ => rfl)
        fun keys => by simp [known, knownUnder_append_of_ne, TableName.text]
    · exact Field.reads_of (accepts_members accepts_text) rfl
        (fun _ hform => hform) nofun (fun _ => rfl)
        fun keys => by simp [known, knownUnder_append_of_ne, TableName.text]
    · exact Field.reads_of (accepts_members (accepts_list accepts_text)) rfl
        (fun _ hform => hform) nofun (fun _ => rfl)
        fun keys => by simp [known, knownUnder_append_of_ne, TableName.text]
    · exact Field.reads_of (accepts_members accepts_spread) rfl
        (fun _ hform => hform.imp fun entry hentry _ hs => ⟨h.starts entry hentry, hs⟩)
        nofun (fun _ => rfl) fun keys => by simp [known, knownUnder_append_of_ne, TableName.text]
    · exact Field.reads_of (accepts_members (accepts_natural (by decide))) rfl
        (fun _ hform => hform.imp fun entry hentry _ hn => ⟨h.arities entry hentry, hn⟩)
        nofun (fun _ => rfl) fun keys => by simp [known, knownUnder_append_of_ne, TableName.text]
    · exact Field.reads_of (accepts_members (accepts_variant ReturnShape.variants)) rfl
        (fun _ hform => hform.imp fun entry _ _ hr => ⟨entry.2.name, entry.2.lookup_name, hr⟩)
        nofun (fun _ => rfl) fun keys => by simp [known, knownUnder_append_of_ne, TableName.text]
  others keys key hother := by
    simp only [forms, defaulted, List.forall_mem_cons] at hother
    obtain ⟨h₁, h₂, h₃, h₄, h₅, h₆, -⟩ := hother
    simp only [known, knownUnder_append_of_ne h₁, knownUnder_append_of_ne h₂,
      knownUnder_append_of_ne h₃, knownUnder_append_of_ne h₄, knownUnder_append_of_ne h₅,
      knownUnder_append_of_ne h₆]

theorem known_tables {t : Tables} {keys : List String}
    (h : ∀ f ∈ t.forms, f.needed → f.name ∈ keys) : (t.known keys).tables = t := by
  simp only [forms, defaulted, List.forall_mem_cons] at h
  obtain ⟨h₁, h₂, h₃, h₄, h₅, h₆, -⟩ := h
  simp only [known, Draft.tables, getD_knownUnder fun _ => h₁ trivial, getD_knownUnder h₂,
    getD_knownUnder h₃, getD_knownUnder h₄, getD_knownUnder h₅, getD_knownUnder h₆]

theorem takes_memberReader {t : Tables} (h : t.InRange) {cs ws : List Char} (hform : t.Form cs)
    (hws : Spaces ws) (rest : List Char) : Takes memberReader (ws ++ (cs ++ rest)) t rest := by
  obtain ⟨keys, hneeded, hlt, hread⟩ := (describes h).takes_record hform hws rest
  refine ⟨hlt, ?_⟩
  change (shapeWith members).reader {} _ = _ at hread
  simp only [memberReader, hread, bind_ok, known_tables hneeded]

theorem writtenIn_eq {t : Tables} (h : t.InRange) {text : String} (hwritten : t.WrittenAs text) :
    writtenIn text = .ok t := by
  obtain ⟨before, cs, after, hbefore, hform, hafter, htext⟩ := hwritten
  obtain ⟨hlt, hread⟩ : Takes memberReader text.toList t after := by
    rw [htext, List.append_assoc]
    exact takes_memberReader h hform hbefore after
  have hdocument : document memberReader text = .ok t := by
    simp only [document, hread, bind_ok, readEnd, nextToken_spaces hafter]
  rw [writtenIn, hdocument]

theorem Representable.inRange {t : Tables} (h : t.Representable) : t.InRange :=
  ⟨h.starts, h.arities⟩

theorem Representable.latest_eq {t : Tables} (h : t.Representable) : t.latest = t := by
  rw [latest, Table.latest_of_nodup h.groups, Table.latest_of_nodup h.targetOf,
    Table.latest_of_nodup h.aliasesOf, Table.latest_of_nodup h.spreads,
    Table.latest_of_nodup h.iterateeArities, Table.latest_of_nodup h.returnShapes]

theorem ofDocument_eq {t : Tables} (h : t.Representable) {text : String}
    (hwritten : t.WrittenAs text) : ofDocument text = .ok t := by
  rw [ofDocument_eq_writtenIn, writtenIn_eq h.inRange hwritten]
  exact congrArg Except.ok h.latest_eq

theorem exists_writtenAs (t : Tables) : ∃ text, t.WrittenAs text := by
  have hnames : ∀ names ∈ t.groups ++ t.aliasesOf, ∃ cs, ListForm StringForm names.2 cs :=
    fun names _ => exists_listForm fun name _ => exists_stringForm name
  obtain ⟨hgroups, haliases⟩ := List.forall_mem_append.mp hnames
  have hform : ∃ cs, t.Form cs := by
    refine exists_recordForm (by simp [forms, defaulted]) ?_
    simp only [forms, defaulted, List.forall_mem_cons]
    exact ⟨exists_tableForm hgroups, exists_tableForm fun _ _ => exists_stringForm _,
      exists_tableForm haliases, exists_tableForm fun entry _ => entry.2.exists_form,
      exists_tableForm fun _ _ => exists_naturalForm _,
      exists_tableForm fun _ _ => exists_stringForm _, by simp⟩
  obtain ⟨cs, hcs⟩ := hform
  refine ⟨String.ofList cs, ?_⟩
  rw [WrittenAs, String.toList_ofList]
  simpa using padded [] [] hcs

end Tables

/-- **A document is its tables.** Tables can be written, and however they are written, they are
read back, and a store is built from the document as it is from the tables. -/
theorem Store.ofDocument_eq_ofTables {t : Tables} (h : t.Representable) :
    (∃ text, t.WrittenAs text) ∧ ∀ text, t.WrittenAs text →
      Tables.ofDocument text = .ok t ∧ Store.ofDocument text = Store.ofTables t := by
  refine ⟨t.exists_writtenAs, fun text hwritten => ?_⟩
  have hread := Tables.ofDocument_eq h hwritten
  refine ⟨hread, ?_⟩
  rw [Store.ofDocument, hread, bind_ok]

/-- Keys and names with escapes, space of all kinds, empty tables left out, unknown members in
the document and in a spread argument, and the main table at the end. -/
theorem Store.ofDocument_eq_ofTables_scattered :
    let text := " \x7b \"x\\u0079\": [null, \"\\uD800\"],\r\n\"iterateeAry\":\x7b\"m\" : 1\x7d,\t"
      ++ "\"methodSpread\":\x7b\"m\":\x7b\"k\":-1.5e3, \"start\": 1\x7d\x7d,"
      ++ "\"ary\\u004dethod\": \x7b\"2\": [\"m\", \"\\ud83d\\ude00\"]\x7d \x7d\n"
    let t : Tables := ⟨[("2", ["m", "😀"])], [], [], [("m", ⟨1, false⟩)], [("m", 1)], []⟩
    t.Representable ∧ t.WrittenAs text
      ∧ Tables.ofDocument text = .ok t ∧ Store.ofDocument text = Store.ofTables t := by
  intro text t
  have hm : StringForm "m" "\"m\"".toList := stringForm_plain (by decide)
  have hone : NaturalForm 1 ['1'] := ⟨⟨by decide, by decide⟩, by decide⟩
  have hxy : StringForm "xy" "\"x\\u0079\"".toList :=
    ⟨_, .cons (.plain (by decide)) (.cons (.unit (@UnitForm.digits 0 0 7 9 '0' '0' '7' '9'
      (by decide) (by decide) (by decide) (by decide))) .nil), rfl⟩
  have hsurrogate : IsValue "\"\\uD800\"".toList :=
    .string ⟨_, .unit (@UnitForm.digits 13 8 0 0 'D' '8' '0' '0' (by decide) (by decide)
      (by decide) (by decide)) .nil, rfl⟩
  have hlist : ListForm Eq ["null".toList, "\"\\uD800\"".toList] _ :=
    .full (.cons (padded [] [] rfl) (.last (padded [' '] [] rfl)))
  have hunknown : IsValue "[null, \"\\uD800\"]".toList := .list (List.forall_mem_cons.mpr
    ⟨.word (by decide), List.forall_mem_singleton.mpr hsurrogate⟩) hlist
  have harities : TableForm NaturalForm t.iterateeArities "\x7b\"m\" : 1\x7d".toList :=
    (.full (.last (padded [] [] (memberForm [' '] [' '] hm hone))) :
      TableForm NaturalForm [("m", 1)] _)
  have hnumber : IsValue "-1.5e3".toList :=
    .number (.inr ⟨_, ⟨['1'], ['.', '5'], ['e', '3'], ⟨by decide, by decide⟩,
      .inr ⟨['5'], by decide, rfl⟩,
      .inr ⟨'e', [], ['3'], .inl rfl, .inl rfl, by decide, rfl⟩, rfl⟩, rfl⟩)
  have hfields : ObjectForm StringForm Eq [("k", "-1.5e3".toList), ("start", ['1'])] _ :=
    .full (.cons (padded [] [] (memberForm [] [] (@stringForm_plain "k" (by decide)) rfl))
      (.last (padded [' '] [] (memberForm [] [' '] (@stringForm_plain "start" (by decide)) rfl))))
  have hspread : Spread.Form ⟨1, false⟩ "\x7b\"k\":-1.5e3, \"start\": 1\x7d".toList := by
    refine ⟨_, hfields, by simp [Spread.forms, defaulted], ?_⟩
    simpa [Spread.forms, defaulted] using And.intro hnumber hone
  have hspreads : TableForm Spread.Form t.spreads
      "\x7b\"m\":\x7b\"k\":-1.5e3, \"start\": 1\x7d\x7d".toList :=
    (.full (.last (padded [] [] (memberForm [] [] hm hspread))) :
      TableForm Spread.Form [("m", ⟨1, false⟩)] _)
  have hmain : StringForm "aryMethod" "\"ary\\u004dethod\"".toList :=
    ⟨_, (@charsForm_plain "ary".toList (by decide)).append (.cons (.unit (@UnitForm.digits
      0 0 4 13 '0' '0' '4' 'd' (by decide) (by decide) (by decide) (by decide)))
      (@charsForm_plain "ethod".toList (by decide))), rfl⟩
  have hemoji : StringForm "😀" "\"\\ud83d\\ude00\"".toList :=
    ⟨_, .cons (@CharForm.pair '😀' 0x3d 0x200 _ _ (by decide) (by decide) (by decide)
      (@UnitForm.digits 13 8 3 13 'd' '8' '3' 'd' (by decide) (by decide) (by decide) (by decide))
      (@UnitForm.digits 13 14 0 0 'd' 'e' '0' '0' (by decide) (by decide) (by decide) (by decide)))
      .nil, rfl⟩
  have hnames : ListForm StringForm ["m", "😀"] _ :=
    .full (.cons (padded [] [] hm) (.last (padded [' '] [] hemoji)))
  have hgroups : TableForm (ListForm StringForm) t.groups
      "\x7b\"2\": [\"m\", \"\\ud83d\\ude00\"]\x7d".toList :=
    (.full (.last (padded [] [] (memberForm [] [' '] (@stringForm_plain "2" (by decide)) hnames))) :
      TableForm (ListForm StringForm) [("2", ["m", "😀"])] _)
  have hmembers : ObjectForm StringForm Eq [("xy", "[null, \"\\uD800\"]".toList),
      ("iterateeAry", "\x7b\"m\" : 1\x7d".toList),
      ("methodSpread", "\x7b\"m\":\x7b\"k\":-1.5e3, \"start\": 1\x7d\x7d".toList),
      ("aryMethod", "\x7b\"2\": [\"m\", \"\\ud83d\\ude00\"]\x7d".toList)] _ :=
    .full (.cons (padded [' '] [] (memberForm [] [' '] hxy rfl))
      (.cons (padded ['\r', '\n'] []
        (memberForm [] [] (@stringForm_plain "iterateeAry" (by decide)) rfl))
      (.cons (padded ['\t'] []
        (memberForm [] [] (@stringForm_plain "methodSpread" (by decide)) rfl))
      (.last (padded [] [' '] (memberForm [] [' '] hmain rfl))))))
  have hwritten : t.WrittenAs text := by
    refine ⟨[' '], _, ['\n'], by decide, ⟨_, hmembers, by simp [Tables.forms, defaulted, t], ?_⟩,
      by decide, by simp only [text, String.toList_append]; decide +kernel⟩
    simpa [Tables.forms, defaulted] using And.intro hunknown ⟨harities, hspreads, hgroups⟩
  have hrepresentable : t.Representable := by constructor <;> decide
  exact ⟨hrepresentable, hwritten,
    (Store.ofDocument_eq_ofTables hrepresentable).2 text hwritten⟩

end CurriedTypings
