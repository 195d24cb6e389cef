import CurriedTypings.Json.Typed

/-!
# Metadata documents

Metadata is written as a JSON object with the tables as members:

    { "aryMethod": { "2": ["map", "filter"] },
      "aliasToReal": { "pluck": "map" },
      "iterateeAry": { "map": 1, "filter": 1 },
      "methodSpread": { "without": { "start": 1 } } }

Only the main table is required; the others are empty if they are not written.
-/

namespace CurriedTypings

open Json

namespace Spread

structure Draft where
  start : Option Nat := none
  afterRearg : Option Bool := none
  deriving DecidableEq, Repr, Inhabited

def shape : Shape Draft where
  name := "struct SpreadInfo"
  fields :=
    [.of "start" true (natural .word) Draft.start fun d a => { d with start := some a },
      .of "afterRearg" false boolean Draft.afterRearg fun d a => { d with afterRearg := some a }]

def Draft.spread (d : Draft) : Spread := ⟨d.start.getD 0, d.afterRearg.getD false⟩

def reader : Reader Spread := fun cs => do
  let (d, rest) ← shape.reader {} cs
  .ok (d.spread, rest)

end Spread

def ReturnShape.variants : Variants ReturnShape :=
  [("arrayOfResult", .arrayOfResult), ("result", .result)]

namespace Tables

/-- What is known of the tables while they are read. -/
structure Draft where
  groups : Option (Table (List String)) := none
  targetOf : Option (Table String) := none
  aliasesOf : Option (Table (List String)) := none
  spreads : Option (Table Spread) := none
  iterateeArities : Option (Table Nat) := none
  returnShapes : Option (Table ReturnShape) := none
  deriving DecidableEq, Repr, Inhabited

def shape : Shape Draft where
  name := "struct MappingTables"
  fields :=
    [.of TableName.aryMethod.text true (table (list text)) Draft.groups
        fun d a => { d with groups := some a },
      .of TableName.aliasToReal.text false (table text) Draft.targetOf
        fun d a => { d with targetOf := some a },
      .of TableName.realToAlias.text false (table (list text)) Draft.aliasesOf
        fun d a => { d with aliasesOf := some a },
      .of TableName.methodSpread.text false (table Spread.reader) Draft.spreads
        fun d a => { d with spreads := some a },
      .of TableName.iterateeAry.text false (table (natural .byte)) Draft.iterateeArities
        fun d a => { d with iterateeArities := some a },
      .of TableName.returnShape.text false (table (variant ReturnShape.variants))
        Draft.returnShapes fun d a => { d with returnShapes := some a }]

def Draft.tables (d : Draft) : Tables where
  groups := d.groups.getD []
  targetOf := d.targetOf.getD []
  aliasesOf := d.aliasesOf.getD []
  spreads := d.spreads.getD []
  iterateeArities := d.iterateeArities.getD []
  returnShapes := d.returnShapes.getD []

def reader : Reader Tables := fun cs => do
  let (d, rest) ← shape.reader {} cs
  .ok (d.tables, rest)

def ofDocument (source : String) : Except MetadataError Tables :=
  match document reader source with
  | .ok t => .ok t
  | .error e => .error (.malformed e.message)

end Tables

def Store.ofDocument (source : String) : Except MetadataError Store := do
  let t ← Tables.ofDocument source
  Store.ofTables t

end CurriedTypings
