import CurriedTypings.Proofs.MergedAliases
import CurriedTypings.Proofs.TableDocuments

/-!
# Documents with repeated keys

A store is checked for functions that are declared twice and for aliases that stand for two
functions, but the checks see tables, and a table has one value for each key. Where a document
gives a key more than once, all values but the last one are gone before any check is made: the
functions of a group that is given again are not declared, and an alias that is bound again
stands for the last function it was bound to (`Store.ofDocument_keeps`). A document in which no
key is repeated loses nothing.
-/

namespace CurriedTypings

open Json

/-! ## Stores built from tables -/

section Built

variable {t : Tables} {s : Store} (built : Store.ofTables t = .ok s)

include built

theorem Store.builtFrom_ofTables : ∃ declared, Tables.Lists t.groups declared
    ∧ BuiltFrom (declared.map (t.recordOf t.aliasesByTarget)) s := by
  rw [Tables.ofTables_eq, bind_eq_ok_iff] at built
  obtain ⟨declared, hdeclared, built⟩ := built
  obtain ⟨-, -, hrecords⟩ := bind_eq_ok_iff.mp built
  exact ⟨declared, (Tables.declarations_eq_ok_iff.mp hdeclared).1, builtFrom_ofRecords hrecords⟩

theorem Store.mem_names_of_ofTables {name : String} :
    name ∈ s.names ↔ ∃ group ∈ t.groups, name ∈ group.2 := by
  obtain ⟨declared, hlists, hbuilt⟩ := builtFrom_ofTables built
  rw [hbuilt.names_perm.mem_iff, Tables.map_name_recordOf, hlists.keys_eq, List.mem_flatMap]

/-- The aliases of a declared function are those that the alias tables have for it. -/
theorem Store.resolveAlias?_of_ofTables {a name : String} :
    s.resolveAlias? a = some name ↔
      name ∈ s.names ∧ a ∈ (t.aliasesByTarget.get? name).getD [] := by
  obtain ⟨declared, -, hbuilt⟩ := builtFrom_ofTables built
  rw [hbuilt.resolveAlias?_eq_some_iff, hbuilt.names_perm.mem_iff, List.mem_map]
  simp only [List.mem_map, Tables.recordOf, addNew_nil_left]
  constructor
  · rintro ⟨_, ⟨declaration, hdeclaration, rfl⟩, rfl, ha⟩
    exact ⟨⟨_, ⟨declaration, hdeclaration, rfl⟩, rfl⟩, mem_distinct.mp ha⟩
  · rintro ⟨⟨_, ⟨declaration, hdeclaration, rfl⟩, rfl⟩, ha⟩
    exact ⟨_, ⟨declaration, hdeclaration, rfl⟩, rfl, mem_distinct.mpr ha⟩

end Built

/-! ## What is kept -/

namespace Tables

/-- A function is listed in a group whose key is not given again. -/
def Keeps (t : Tables) (name : String) : Prop :=
  ∃ key names, Table.IsLast t.groups key names ∧ name ∈ names

/-- An alias is bound to a function, or listed under it, where the key is not given again. -/
def Binds (t : Tables) (a name : String) : Prop :=
  Table.IsLast t.targetOf a name ∨ ∃ names, Table.IsLast t.aliasesOf name names ∧ a ∈ names

theorem keeps_iff {t : Tables} {name : String} :
    t.Keeps name ↔ ∃ group ∈ t.latest.groups, name ∈ group.2 := by
  constructor
  · rintro ⟨key, names, hlast, hname⟩
    exact ⟨(key, names), Table.mem_latest_iff.mpr hlast, hname⟩
  · rintro ⟨⟨key, names⟩, hmem, hname⟩
    exact ⟨key, names, Table.mem_latest_iff.mp hmem, hname⟩

theorem binds_iff {t : Tables} {a name : String} :
    t.Binds a name ↔ a ∈ (t.latest.aliasesByTarget.get? name).getD [] := by
  have hlisted : (∃ names, Table.IsLast t.aliasesOf name names ∧ a ∈ names) ↔
      a ∈ (t.latest.aliasesOf.get? name).getD [] := by
    simp only [← Table.get?_latest_eq_some_iff]
    show (∃ names, t.latest.aliasesOf.get? name = some names ∧ a ∈ names) ↔ _
    cases t.latest.aliasesOf.get? name <;> simp
  rw [Binds, getD_aliasesByTarget, mem_addNew, mem_aliasesBoundTo, ← hlisted, or_comm,
    ← Table.mem_latest_iff]
  rfl

end Tables

/-- **Only repeated keys lose anything.** In a document that is loaded, there are tables as it
writes them. The functions declared are those listed in a group whose key is not given again,
so all of them if no key is repeated there. An alias stands for a declared function if and only
if it is bound to it, or listed under it, where the key is not given again. No alias is kept
for two declared functions. -/
theorem Store.ofDocument_keeps {text : String} {s : Store}
    (loaded : Store.ofDocument text = .ok s) :
    ∃ t, Tables.writtenIn text = .ok t
      ∧ (∀ u : Tables, u.InRange → u.WrittenAs text → u = t)
      ∧ (∀ name, name ∈ s.names ↔ t.Keeps name)
      ∧ (t.groups.keys.Nodup → ∀ group ∈ t.groups, ∀ name ∈ group.2, name ∈ s.names)
      ∧ (∀ a name, s.resolveAlias? a = some name ↔ t.Keeps name ∧ t.Binds a name)
      ∧ ∀ a f g, t.Keeps f → t.Keeps g → t.Binds a f → t.Binds a g → f = g := by
  rw [ofDocument, Tables.ofDocument_eq_writtenIn] at loaded
  obtain ⟨u, hread, built⟩ := bind_eq_ok_iff.mp loaded
  obtain ⟨t, ht, rfl⟩ : ∃ t, Tables.writtenIn text = .ok t ∧ t.latest = u := by
    cases hwritten : Tables.writtenIn text with
    | error e => rw [hwritten] at hread; cases hread
    | ok t => rw [hwritten] at hread; exact ⟨t, rfl, Except.ok.inj hread⟩
  have hnames : ∀ name, name ∈ s.names ↔ t.Keeps name := fun name => by
    rw [mem_names_of_ofTables built, Tables.keeps_iff]
  have haliases : ∀ a name,
      s.resolveAlias? a = some name ↔ t.Keeps name ∧ t.Binds a name := fun a name => by
    rw [resolveAlias?_of_ofTables built, hnames, Tables.binds_iff]
  refine ⟨t, ht, fun u hrange hwritten => ?_, hnames, fun hdistinct group hgroup name hname => ?_,
    haliases, fun a f g hf hg hbinds hbinds' => ?_⟩
  · exact Except.ok.inj ((Tables.writtenIn_eq hrange hwritten).symm.trans ht)
  · rw [mem_names_of_ofTables built]
    have hlatest : t.latest.groups = t.groups := Table.latest_of_nodup hdistinct
    exact ⟨group, hlatest ▸ hgroup, hname⟩
  · have hresolve := (haliases a f).mpr ⟨hf, hbinds⟩
    rw [(haliases a g).mpr ⟨hg, hbinds'⟩] at hresolve
    exact (Option.some.inj hresolve).symm

/-! ## A document that loses a function and an alias -/

namespace RepeatedKeys

/-- A document that gives a group twice and binds an alias twice. -/
def source : String :=
  "\x7b\"aryMethod\":\x7b\"2\":[\"map\",\"filter\"],\"1\":[\"first\"],\"1\":[\"last\"]\x7d,"
    ++ "\"aliasToReal\":\x7b\"x\":\"map\",\"x\":\"filter\"\x7d\x7d"

def tables : Tables :=
  { groups := [("2", ["map", "filter"]), ("1", ["first"]), ("1", ["last"])]
    targetOf := [("x", "map"), ("x", "filter")] }

def store : Store :=
  { functions :=
      [("map", .declare "map" 2), ("filter", { name := "filter", arity := 2, aliases := ["x"] }),
        ("last", .declare "last" 1)]
    aliasIndex := [("x", "filter")]
    names := ["filter", "last", "map"] }

theorem tables_writtenAs : tables.WrittenAs source := by
  have hplain : ∀ {s : String}, ArePlain s.toList → StringForm s ('"' :: (s.toList ++ ['"'])) :=
    fun h => stringForm_plain h
  have hpair : ListForm StringForm ["map", "filter"] "[\"map\",\"filter\"]".toList :=
    .full (.cons (padded [] [] (hplain (by decide))) (.last (padded [] [] (hplain (by decide)))))
  have hfirst : ListForm StringForm ["first"] "[\"first\"]".toList :=
    .full (.last (padded [] [] (hplain (by decide))))
  have hlast : ListForm StringForm ["last"] "[\"last\"]".toList :=
    .full (.last (padded [] [] (hplain (by decide))))
  have hgroups : TableForm (ListForm StringForm) tables.groups
      "\x7b\"2\":[\"map\",\"filter\"],\"1\":[\"first\"],\"1\":[\"last\"]\x7d".toList :=
    (.full (.cons (padded [] [] (memberForm [] [] (@stringForm_plain "2" (by decide)) hpair))
      (.cons (padded [] [] (memberForm [] [] (@stringForm_plain "1" (by decide)) hfirst))
        (.last (padded [] [] (memberForm [] [] (@stringForm_plain "1" (by decide)) hlast))))) :
      TableForm (ListForm StringForm) [("2", ["map", "filter"]), ("1", ["first"]), ("1", ["last"])] _)
  have hbindings : TableForm StringForm tables.targetOf
      "\x7b\"x\":\"map\",\"x\":\"filter\"\x7d".toList :=
    (.full (.cons (padded [] [] (memberForm [] [] (@stringForm_plain "x" (by decide))
        (@stringForm_plain "map" (by decide))))
      (.last (padded [] [] (memberForm [] [] (@stringForm_plain "x" (by decide))
        (@stringForm_plain "filter" (by decide)))))) :
      TableForm StringForm [("x", "map"), ("x", "filter")] _)
  have hmembers : ObjectForm StringForm Eq
      [("aryMethod",
          "\x7b\"2\":[\"map\",\"filter\"],\"1\":[\"first\"],\"1\":[\"last\"]\x7d".toList),
        ("aliasToReal", "\x7b\"x\":\"map\",\"x\":\"filter\"\x7d".toList)] _ :=
    .full (.cons (padded [] [] (memberForm [] [] (@stringForm_plain "aryMethod" (by decide)) rfl))
      (.last (padded [] [] (memberForm [] [] (@stringForm_plain "aliasToReal" (by decide)) rfl))))
  refine ⟨[], _, [], by decide, ⟨_, hmembers, by simp [Tables.forms, defaulted, tables], ?_⟩,
    by decide, by decide +kernel⟩
  simpa [Tables.forms, defaulted] using And.intro hgroups hbindings

theorem ofDocument_source : Store.ofDocument source = .ok store := by
  have hrange : tables.InRange := ⟨by decide, by decide⟩
  rw [Store.ofDocument, Tables.ofDocument_eq_writtenIn, Tables.writtenIn_eq hrange tables_writtenAs]
  show Store.ofRecords [.declare "map" 2, { name := "filter", arity := 2, aliases := ["x"] },
    .declare "last" 1] = _
  exact Store.ofRecords_eq rfl (by decide) (by decide) rfl

end RepeatedKeys

open RepeatedKeys in
/-- A function that a document lists is not declared, and an alias that it binds to two declared
functions stands for the second one. -/
theorem Store.ofDocument_loses :
    tables.WrittenAs source ∧ ∃ s, Store.ofDocument source = .ok s
      ∧ ("1", ["first"]) ∈ tables.groups ∧ "first" ∉ s.names
      ∧ ("x", "map") ∈ tables.targetOf ∧ ("x", "filter") ∈ tables.targetOf
      ∧ "map" ∈ s.names ∧ "filter" ∈ s.names ∧ s.resolveAlias? "x" = some "filter" :=
  ⟨tables_writtenAs, store, ofDocument_source, by decide, by decide, by decide, by decide, by decide,
    by decide, rfl⟩

open RepeatedKeys in
/-- What is kept of that document is kept according to the rule. -/
theorem Store.ofDocument_keeps_last :
    ∃ s, Store.ofDocument source = .ok s ∧ (∀ name, name ∈ s.names ↔ tables.Keeps name)
      ∧ ∀ a name, s.resolveAlias? a = some name ↔ tables.Keeps name ∧ tables.Binds a name := by
  obtain ⟨t, -, hwritten, hnames, -, haliases, -⟩ := Store.ofDocument_keeps ofDocument_source
  obtain rfl := hwritten tables ⟨by decide, by decide⟩ tables_writtenAs
  exact ⟨store, ofDocument_source, hnames, haliases⟩

end CurriedTypings
