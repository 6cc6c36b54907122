import ResultSchema.Bucket.Binning
import ResultSchema.Bucket.TemporalUnit
import ResultSchema.Catalog.BaseType

/-! # Field references

A field is addressed by its catalog id or by the name that a stage gave it, with options
that say how it is reached and grouped.
-/

namespace ResultSchema

inductive FieldId
  | id (id : Int64)
  | name (name : String)
  deriving DecidableEq, Repr

namespace FieldId

def toJson : FieldId → Json
  | id i => .ofInt64 i
  | name s => .str s

def display : FieldId → String
  | id i => toString i
  | name s => "\"" ++ s ++ "\""

def ofJson? : Json → Option FieldId
  | .str s => some (name s)
  | v => v.asInt64?.map id

end FieldId

structure FieldOptions where
  baseType : Option BaseType := none
  joinAlias : Option String := none
  /-- The foreign key through which the field is reached. -/
  sourceField : Option Int64 := none
  temporalUnit : Option TemporalUnit := none
  binning : Option Binning := none
  /-- Options of a stage's own, whose keys have a slash; they are never part of an emitted
  reference. -/
  namespaced : OrderedMap Json := .empty
  deriving DecidableEq

namespace FieldOptions

/-- Adds one option; options of no known key are ignored. -/
def readEntry (loc : Location) (o : FieldOptions) (e : String × Json) : Reading FieldOptions := do
  let (key, v) := e
  let place := loc.key key
  match key with
  | "base-type" =>
    let t ← Reading.require (BaseType.ofJson? v) .unknownBaseType place v
    pure { o with baseType := some t }
  | "join-alias" =>
    let joinAlias ← Reading.require v.asString? .joinAliasNotString place v
    pure { o with joinAlias := some joinAlias }
  | "source-field" =>
    let id ← Reading.require v.asInt64? .sourceFieldNotId place v
    pure { o with sourceField := some id }
  | "temporal-unit" =>
    let unit ← Reading.require (TemporalUnit.ofJson? v) .unknownTemporalUnit place v
    pure { o with temporalUnit := some unit }
  | "binning" =>
    let binning ← Binning.read v place
    pure { o with binning := some binning }
  | _ =>
    if key.toList.contains '/' then pure { o with namespaced := o.namespaced.insert key v }
    else pure o

def read (v : Json) (loc : Location) : Reading FieldOptions :=
  match v with
  | .null => pure {}
  | .obj entries => entries.foldlM (readEntry loc) {}
  | v => throw ⟨.optionsNotObject, loc, v⟩

def isEmpty (o : FieldOptions) : Bool :=
  o.baseType.isNone && o.joinAlias.isNone && o.sourceField.isNone && o.temporalUnit.isNone
    && o.binning.isNone && o.namespaced.isEmpty

def entries (o : FieldOptions) : List (String × Json) :=
  (o.baseType.map fun t => ("base-type", t.toJson)).toList
    ++ (o.joinAlias.map fun a => ("join-alias", Json.str a)).toList
    ++ (o.sourceField.map fun i => ("source-field", Json.ofInt64 i)).toList
    ++ (o.temporalUnit.map fun u => ("temporal-unit", u.toJson)).toList
    ++ (o.binning.map fun b => ("binning", b.toOptions)).toList
    ++ o.namespaced.entries

def toJson (o : FieldOptions) : Json := if o.isEmpty then .null else .obj o.entries

def withoutNamespaced (o : FieldOptions) : FieldOptions := { o with namespaced := .empty }

end FieldOptions

structure FieldRef where
  id : FieldId
  options : FieldOptions := {}
  deriving DecidableEq

namespace FieldRef

/-- Reads what follows the tag of a field reference `whole`. -/
def readArgs (args : List Json) (loc : Location) (whole : Json) : Reading FieldRef := do
  let id ← Reading.require (args[0]?.bind FieldId.ofJson?) .fieldWithoutId loc whole
  let options ← match args[1]? with
    | some v => FieldOptions.read v (loc.index 2)
    | none => pure {}
  if 2 < args.length then throw ⟨.fieldArguments, loc, whole⟩
  pure { id, options }

def withoutNamespaced (f : FieldRef) : FieldRef :=
  { f with options := f.options.withoutNamespaced }

def toJson (f : FieldRef) : Json := .arr [.str "field", f.id.toJson, f.options.toJson]

end FieldRef

end ResultSchema
