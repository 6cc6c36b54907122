import ResultSchema.Catalog.BaseType

/-! # Results of running a query

A driver reports columns that line up with the rows. Keys without a field of their own are
kept in order.
-/

namespace ResultSchema

/-- A column as the driver reports it. -/
structure RawColumn where
  name : String := ""
  baseType : Option BaseType := none
  effectiveType : Option BaseType := none
  databaseType : Option String := none
  /-- The id of the catalog field, when the driver knows it. -/
  id : Option Int64 := none
  extra : OrderedMap Json := .empty
  deriving DecidableEq

namespace RawColumn

def readEntry (c : RawColumn) (e : String × Json) : Option RawColumn :=
  let (key, v) := e
  match key with
  | "name" => v.asString?.map ({ c with name := · })
  | "base_type" => (v.optional BaseType.ofTag?).map ({ c with baseType := · })
  | "effective_type" => (v.optional BaseType.ofTag?).map ({ c with effectiveType := · })
  | "database_type" => (v.optional Json.asString?).map ({ c with databaseType := · })
  | "id" => (v.optional Json.asInt64?).map ({ c with id := · })
  | _ => some { c with extra := c.extra.insert key v }

def ofJson? (v : Json) : Option RawColumn := do
  let entries ← v.asObject?
  entries.foldlM readEntry {}

def toJson (c : RawColumn) : Json :=
  .obj ([("name", .str c.name)]
    ++ (c.baseType.map fun t => ("base_type", t.toJson)).toList
    ++ (c.effectiveType.map fun t => ("effective_type", t.toJson)).toList
    ++ (c.databaseType.map fun t => ("database_type", Json.str t)).toList
    ++ (c.id.map fun i => ("id", Json.ofInt64 i)).toList
    ++ c.extra.entries)

end RawColumn

structure ExecutionResult where
  columns : List RawColumn := []
  rows : List (List Json) := []
  extra : OrderedMap Json := .empty
  deriving DecidableEq

namespace ExecutionResult

def readEntry (r : ExecutionResult) (e : String × Json) : Option ExecutionResult :=
  let (key, v) := e
  match key with
  | "columns" => do
    let columns ← (← v.asArray?).mapM RawColumn.ofJson?
    pure { r with columns }
  | "rows" => do
    let rows ← (← v.asArray?).mapM Json.asArray?
    pure { r with rows }
  | _ => some { r with extra := r.extra.insert key v }

def ofJson? (v : Json) : Option ExecutionResult := do
  let entries ← v.asObject?
  entries.foldlM readEntry {}

def rowsJson (rows : List (List Json)) : Json := .arr (rows.map .arr)

def toJson (r : ExecutionResult) : Json :=
  .obj ([("columns", .arr (r.columns.map RawColumn.toJson)), ("rows", rowsJson r.rows)]
    ++ r.extra.entries)

def rowWidth? (r : ExecutionResult) : Option Nat := r.rows.head?.map List.length

def columnNames (r : ExecutionResult) : List String := r.columns.map (·.name)

end ExecutionResult

end ResultSchema
