import ResultSchema.Column.Names
import ResultSchema.Resolve.Scope
import ResultSchema.Result.Merge

/-! # Columns of native queries

A native query has the columns that the driver reports, under unique names. Types that are
not reported are taken from the first row.
-/

namespace ResultSchema.Native

def checkWidth (results : ExecutionResult) : Except SchemaError Unit :=
  match results.rowWidth? with
  | none => .ok ()
  | some width =>
    if width = results.columns.length then .ok ()
    else .error (.mismatch {
      expectedCount := results.columns.length
      actualCount := width
      expectedColumns := results.columnNames
      actualColumns := [] })

/-- The column of a catalog field that the driver recognised. -/
def ofCatalog (lexicon : Lexicon) (raw : RawColumn) (id : Int64) (unique : String) :
    Except SchemaError Column := do
  let c ← lexicon.column id
  let c := (c.referredBy { id := .id id }).withExecuted raw
  pure { c with
    ident := c.ident.or (some (Ident.native unique))
    name := unique
    source := some .native }

/-- A column that is known by its name only; a blank name cannot be referred to. -/
def ofName (raw : RawColumn) (sample : Option Json) (unique : String) : Column :=
  let baseType := BaseType.best [raw.baseType, sample.map BaseType.ofSample]
  { name := unique
    displayName := raw.name
    baseType
    effectiveType := raw.effectiveType.or (if baseType.isWildcard then none else some baseType)
    source := some .native
    ident := some (Ident.native unique)
    fieldRef :=
      if unique.toList.all Text.isBlank then none
      else some (.byName unique { baseType := some baseType })
    extra := (OrderedMap.ofList raw.databaseEntry).union raw.extra }

def column (lexicon : Lexicon) (raw : RawColumn) (sample : Option Json) (unique : String) :
    Except SchemaError Column :=
  match raw.id with
  | some id => ofCatalog lexicon raw id unique
  | none => .ok (ofName raw sample unique)

def columns (lexicon : Lexicon) (results : ExecutionResult) : Except SchemaError (List Column) := do
  checkWidth results
  let names := UniqueNames.freshAll {} results.columnNames
  (results.columns.zip names).zipIdx.mapM fun ((raw, unique), i) =>
    column lexicon raw (results.rows.head?.bind (·[i]?)) unique

end ResultSchema.Native
