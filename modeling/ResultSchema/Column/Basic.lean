import ResultSchema.Catalog.Field
import ResultSchema.Reference.ColumnRef

/-! # Result columns

The descriptor of one column of a result. Its reference selects it again from the stage
that made it, and its ident stays the same when names change.
-/

namespace ResultSchema

inductive ColumnSource
  | breakout | aggregation | fields | native
  deriving DecidableEq, Repr

structure Column where
  name : String := ""
  displayName : String := ""
  baseType : BaseType := .wildcard
  effectiveType : Option BaseType := none
  coercionStrategy : Option String := none
  source : Option ColumnSource := none
  fieldRef : Option ColumnRef := none
  ident : Option String := none
  /-- The id of the catalog field. -/
  id : Option Int64 := none
  sourceAlias : Option String := none
  fkFieldId : Option Int64 := none
  binning : Option Binning := none
  unit : Option TemporalUnit := none
  convertedTimezone : Option String := none
  aggregationIndex : Option Nat := none
  expressionName : Option String := none
  /-- Options of a stage's own that its references carried. -/
  options : OrderedMap Json := .empty
  /-- Keys that the descriptor has no field for. -/
  extra : OrderedMap Json := .empty
  deriving DecidableEq, Inhabited

namespace Column

def ofField (f : CatalogField) : Column where
  name := f.name
  displayName := f.displayName
  baseType := f.baseType
  effectiveType := f.effectiveType
  coercionStrategy := f.coercionStrategy
  ident := f.ident
  id := some f.id

/-- Columns of breakouts and aggregations keep the ident that their stage gave them. -/
def ownsIdent (c : Column) : Bool := c.source == some .breakout || c.source == some .aggregation

/-- The reference with which the column is paired, its name if it has none. -/
def key (c : Column) : RefKey := (c.fieldRef.map ColumnRef.key).getD (.name c.name)

/-- The column as the stage around its own selects it again: a catalog field by its id,
any other column by its name. -/
def reselected (c : Column) : Column :=
  let ref := match c.fieldRef with
    | some (.field ⟨.id i, options⟩) => ColumnRef.field ⟨.id i, options⟩
    | _ => .byName c.name { baseType := if c.baseType.isWildcard then none else some c.baseType }
  { c with fieldRef := some ref, source := some .fields, aggregationIndex := none, expressionName := none }

/-- The display name followed by the bucket of the column. -/
def longDisplayName (c : Column) : String :=
  let bucketed := match c.unit with
    | none | some .default => c.displayName
    | some unit => c.displayName ++ ": " ++ unit.displayName
  match c.binning with
  | none => bucketed
  | some binning => bucketed ++ ": " ++ binning.displayName

end Column

end ResultSchema
