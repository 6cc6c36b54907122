import ResultSchema.Column.Basic
import ResultSchema.Result.Raw

/-! # Merging column facts

Declared columns are laid over computed ones, and what the driver reports over both. Names
and references are kept, and a column that owns its ident keeps it.
-/

namespace ResultSchema

namespace Column

/-- The ident after merging with another one. -/
def mergedIdent (c : Column) (other : Option String) : Option String :=
  if c.ownsIdent && c.ident.isSome then c.ident else other.or c.ident

/-- The column with the known facts of a declared one laid over it. -/
def withDeclared (c declared : Column) : Column :=
  { c with
    displayName := if declared.displayName.isEmpty then c.displayName else declared.displayName
    baseType := if declared.baseType.isWildcard then c.baseType else declared.baseType
    effectiveType := declared.effectiveType.or c.effectiveType
    coercionStrategy := declared.coercionStrategy.or c.coercionStrategy
    id := declared.id.or c.id
    fkFieldId := declared.fkFieldId.or c.fkFieldId
    sourceAlias := declared.sourceAlias.or c.sourceAlias
    binning := declared.binning.or c.binning
    convertedTimezone := declared.convertedTimezone.or c.convertedTimezone
    unit := match c.unit with
      | none | some .default => declared.unit.or c.unit
      | unit => unit
    extra := c.extra.union declared.extra
    ident := c.mergedIdent declared.ident }

end Column

namespace RawColumn

def ident? (raw : RawColumn) : Option String := (raw.extra.get? "ident").bind Json.asString?

/-- The label that the driver gives, unless it is empty. -/
def label? (raw : RawColumn) : Option String :=
  match raw.extra.get? "display_name" with
  | some (.str label) => if label.isEmpty then none else some label
  | _ => none

/-- Whether an extra entry is no name, ident or label of the column. -/
def isPlain : String × Json → Bool
  | ("name", _) => false
  | ("ident", .str _) => false
  | ("display_name", .str label) => label.isEmpty
  | _ => true

/-- The type under which the driver's database knows the column, as an extra entry. -/
def databaseEntry (raw : RawColumn) : List (String × Json) :=
  (raw.databaseType.map fun t => ("database_type", Json.str t)).toList

end RawColumn

namespace Column

/-- The column with what the driver reports laid over it. -/
def withExecuted (c : Column) (raw : RawColumn) : Column :=
  { c with
    effectiveType :=
      BaseType.known? [raw.effectiveType, raw.baseType, c.effectiveType, some c.baseType]
    baseType := BaseType.best [raw.baseType, some c.baseType]
    id := raw.id.or c.id
    displayName := raw.label?.getD c.displayName
    extra := (c.extra.insertAll raw.databaseEntry).insertAll
      (raw.extra.entries.filter RawColumn.isPlain)
    ident := c.mergedIdent raw.ident? }

end Column

namespace Merge

/-- Lays each declared column over the one with the same key; the first of equal keys is
taken. Lists of different lengths are not merged. -/
def declared (columns declared : List Column) : List Column :=
  if columns.length ≠ declared.length then columns
  else columns.map fun c =>
    match declared.find? (·.key == c.key) with
    | some d => c.withDeclared d
    | none => c

/-- Lays declared columns over those at the same positions. -/
def overlaid (columns declared : List Column) : List Column :=
  if columns.length ≠ declared.length then columns
  else columns.zipWith Column.withDeclared declared

/-- Lays the driver's columns over those at the same positions; further columns stay. -/
def executed : List Column → List RawColumn → List Column
  | c :: columns, raw :: raws => c.withExecuted raw :: executed columns raws
  | columns, [] => columns
  | [], _ => []

def all (columns declaredColumns : List Column) (raws : List RawColumn) : List Column :=
  executed (declared columns declaredColumns) raws

end Merge

end ResultSchema
