import CurriedTypings.FunctionRecord
import Mathlib.Data.List.Forall2
import Mathlib.Data.List.Infix

/-!
# Records put together step by step

A record is declared with a name and an arity and is then given one setting after the other.
What it holds at any moment can be read off the settings so far without going through them one
by one:

- the aliases are all that have been given, in the order given and each at its first occurrence
  (`aliases_setAll`);
- any other property has the value it was given last, or none (`KeepsLast.setAll`).

For both there is a law for one setting, which says what the record takes over from it, and the
law for a run of settings follows by induction from the back: the last setting is the one that
counts, or the one whose aliases go to the end. The headline theorem `states_reflect` is about the
records after none, one, two, … of the settings.
-/

namespace CurriedTypings.FunctionRecord

namespace Setting

def givenAliases : Setting → List String
  | aliases names => names
  | _ => []

def spreadStart? : Setting → Option Nat
  | spreadStart index => some index
  | _ => none

def iterateeArity? : Setting → Option Nat
  | iterateeArity count => some count
  | _ => none

def returnShape? : Setting → Option ReturnShape
  | returnShape shape => some shape
  | _ => none

end Setting

variable (f : FunctionRecord) (settings : List Setting)

/-! ## Runs of settings -/

theorem setAll_append_singleton (s : Setting) :
    f.setAll (settings ++ [s]) = (f.setAll settings).set s := by
  rw [setAll, List.foldl_append]
  rfl

/-- The states of a record are what comes of the leading parts of its settings. -/
theorem states_eq_map : f.states settings = settings.inits.map f.setAll := by
  induction settings generalizing f with
  | nil => rfl
  | cons s settings ih =>
      rw [states, ih, List.inits_cons, List.map_cons, List.map_map]
      rfl

/-- What no setting changes is unchanged by a run of them. -/
theorem setAll_unchanged {α : Type} {property : FunctionRecord → α}
    (h : ∀ f s, property (f.set s) = property f) : property (f.setAll settings) = property f := by
  induction settings using List.reverseRecOn with
  | nil => rfl
  | append_singleton settings s ih => rw [setAll_append_singleton, h, ih]

/-! ## Aliases -/

theorem aliases_set (s : Setting) : (f.set s).aliases = addNew f.aliases s.givenAliases := by
  cases s <;> rfl

theorem aliases_setAll :
    (f.setAll settings).aliases = addNew f.aliases (settings.flatMap Setting.givenAliases) := by
  induction settings using List.reverseRecOn with
  | nil => rfl
  | append_singleton settings s ih =>
      rw [setAll_append_singleton, aliases_set, ih, List.flatMap_append, List.flatMap_singleton,
        addNew_append]

theorem mem_flatMap_givenAliases {settings : List Setting} {a : String} :
    a ∈ settings.flatMap Setting.givenAliases ↔ ∃ names, .aliases names ∈ settings ∧ a ∈ names := by
  rw [List.mem_flatMap]
  constructor
  · rintro ⟨s, hs, ha⟩
    cases s with
    | aliases names => exact ⟨names, hs, ha⟩
    | spreadStart index => exact absurd ha List.not_mem_nil
    | iterateeArity count => exact absurd ha List.not_mem_nil
    | returnShape shape => exact absurd ha List.not_mem_nil
  · rintro ⟨names, hnames, ha⟩
    exact ⟨.aliases names, hnames, ha⟩

/-! ## Other properties -/

/-- A property takes over the value that a setting has for it, and keeps its own if there is
none. -/
def KeepsLast {α : Type} (property : FunctionRecord → Option α) (value? : Setting → Option α) :
    Prop :=
  ∀ f s, property (f.set s) = (value? s).or (property f)

theorem keepsLast_spreadStart : KeepsLast spreadStart Setting.spreadStart? :=
  fun _ s => by cases s <;> rfl

theorem keepsLast_iterateeArity : KeepsLast iterateeArity Setting.iterateeArity? :=
  fun _ s => by cases s <;> rfl

theorem keepsLast_returnShape : KeepsLast returnShape Setting.returnShape? :=
  fun _ s => by cases s <;> rfl

theorem KeepsLast.setAll {α : Type} {property : FunctionRecord → Option α}
    {value? : Setting → Option α} (h : KeepsLast property value?) :
    property (f.setAll settings) = (settings.filterMap value?).getLast?.or (property f) := by
  induction settings using List.reverseRecOn with
  | nil => rfl
  | append_singleton settings s ih =>
      have hlast : ([s].filterMap value?).getLast? = value? s := by
        cases hs : value? s <;> simp [hs]
      rw [setAll_append_singleton, h, ih, List.filterMap_append, List.getLast?_append, hlast,
        Option.or_assoc]

/-! ## Records that were declared -/

/-- How a record reflects the name and the arity it was declared with and the settings it has
been given. -/
structure Reflects (name : String) (arity : Nat) (given : List Setting) (f : FunctionRecord) :
    Prop where
  name_eq : f.name = name
  arity_eq : f.arity = arity
  /-- The aliases are those given, each at its first occurrence, … -/
  aliases_eq : f.aliases = distinct (given.flatMap Setting.givenAliases)
  /-- … so none is repeated, … -/
  aliases_nodup : f.aliases.Nodup
  /-- … none is lost or invented, … -/
  mem_aliases : ∀ a, a ∈ f.aliases ↔ ∃ names, .aliases names ∈ given ∧ a ∈ names
  /-- … and of two of them the one that was given first comes first. -/
  aliases_ordered : f.aliases.Pairwise fun a b =>
    (given.flatMap Setting.givenAliases).idxOf a < (given.flatMap Setting.givenAliases).idxOf b
  /-- Any other property has the value it was given last. -/
  spreadStart_eq : f.spreadStart = (given.filterMap Setting.spreadStart?).getLast?
  iterateeArity_eq : f.iterateeArity = (given.filterMap Setting.iterateeArity?).getLast?
  returnShape_eq : f.returnShape = (given.filterMap Setting.returnShape?).getLast?
  /-- There is one binding for each of the aliases, … -/
  bound_names : f.aliasBindings.map AliasBinding.name = f.aliases
  /-- … and all bindings are to the name of the record. -/
  bound_target : ∀ binding ∈ f.aliasBindings, binding.target = name

theorem reflects_setAll (name : String) (arity : Nat) (given : List Setting) :
    Reflects name arity given ((declare name arity).setAll given) := by
  have hname := setAll_unchanged (declare name arity) given set_name
  have haliases : ((declare name arity).setAll given).aliases
      = distinct (given.flatMap Setting.givenAliases) :=
    (aliases_setAll _ given).trans (addNew_nil_left _)
  exact {
    name_eq := hname
    arity_eq := setAll_unchanged _ given set_arity
    aliases_eq := haliases
    aliases_nodup := haliases ▸ nodup_distinct _
    mem_aliases := fun a => by rw [haliases, mem_distinct, mem_flatMap_givenAliases]
    aliases_ordered := haliases ▸ pairwise_distinct _
    spreadStart_eq := (keepsLast_spreadStart.setAll _ given).trans Option.or_none
    iterateeArity_eq := (keepsLast_iterateeArity.setAll _ given).trans Option.or_none
    returnShape_eq := (keepsLast_returnShape.setAll _ given).trans Option.or_none
    bound_names := map_name_aliasBindings _
    bound_target := fun _ hbinding => (mem_aliasBindings_iff.mp hbinding).2.trans hname }

/-- **The aliases of a record are an ordered set while it is put together.** Start from a
declaration and give it one setting after the other. After each of them the record has the name
and the arity of the declaration, the aliases given so far, each at its first occurrence and bound
once, to the name of the record, and for any other property the value given last. Aliases may be
given to any record in two steps or at once, and to give it the same setting twice in a row is to
give it once. -/
theorem states_reflect (name : String) (arity : Nat) (settings : List Setting) :
    List.Forall₂ (Reflects name arity) settings.inits ((declare name arity).states settings)
      ∧ Reflects name arity settings ((declare name arity).setAll settings)
      ∧ (∀ (f : FunctionRecord) (xs ys : List String),
          (f.set (.aliases xs)).set (.aliases ys) = f.set (.aliases (xs ++ ys)))
      ∧ ∀ (f : FunctionRecord) (s : Setting), (f.set s).set s = f.set s := by
  refine ⟨?_, reflects_setAll name arity settings, set_aliases_append, set_set⟩
  rw [states_eq_map, List.forall₂_map_right_iff, List.forall₂_same]
  intro given _
  exact reflects_setAll name arity given

end CurriedTypings.FunctionRecord
