import ResultSchema.Column.Basic

/-! # Column descriptors as documents

A descriptor is written with its present facts only. Reading takes the entries in order,
so the first unfit one decides the error, and keeps entries of unknown keys.
-/

namespace ResultSchema

namespace ColumnSource

def name : ColumnSource → String
  | breakout => "breakout"
  | aggregation => "aggregation"
  | fields => "fields"
  | native => "native"

def ofJson? (v : Json) : Option ColumnSource := do
  let text ← v.asTag?
  [breakout, aggregation, fields, native].find? (·.name == text)

end ColumnSource

namespace Column

inductive Unfit
  | shape
  | fieldRef (e : ReadError)
  deriving DecidableEq

def Unfit.detail? : Unfit → Option String
  | shape => none
  | fieldRef e => some e.display

def entries (c : Column) : List (String × Json) :=
  let present {α : Type} (key : String) (write : α → Json) (o : Option α) : List (String × Json) :=
    (o.map fun a => (key, write a)).toList
  [("name", .str c.name), ("display_name", .str c.displayName), ("base_type", c.baseType.toJson)]
    ++ present "effective_type" BaseType.toJson c.effectiveType
    ++ present "coercion_strategy" .str c.coercionStrategy
    ++ present "source" (.str ·.name) c.source
    ++ present "field_ref" ColumnRef.toJson c.fieldRef
    ++ present "ident" .str c.ident
    ++ present "id" .ofInt64 c.id
    ++ present "source_alias" .str c.sourceAlias
    ++ present "fk_field_id" .ofInt64 c.fkFieldId
    ++ present "binning_info" Binning.toJson c.binning
    ++ present "unit" TemporalUnit.toJson c.unit
    ++ present "converted_timezone" .str c.convertedTimezone
    ++ present "aggregation_index" .ofNat c.aggregationIndex
    ++ present "expression_name" .str c.expressionName
    ++ (if c.options.isEmpty then [] else [("options", .obj c.options.entries)])
    ++ c.extra.entries

def toJson (c : Column) : Json := .obj c.entries

def readEntry (c : Column) (e : String × Json) : Except Unfit Column :=
  let (key, v) := e
  let fit (o : Option Column) : Except Unfit Column := (o.map .ok).getD (.error .shape)
  match key with
  | "name" => fit (v.asString?.map ({ c with name := · }))
  | "display_name" => fit (v.asString?.map ({ c with displayName := · }))
  | "base_type" => fit ((BaseType.ofTag? v).map ({ c with baseType := · }))
  | "effective_type" => fit ((v.optional BaseType.ofTag?).map ({ c with effectiveType := · }))
  | "coercion_strategy" => fit ((v.optional Json.asString?).map ({ c with coercionStrategy := · }))
  | "source" => fit ((v.optional ColumnSource.ofJson?).map ({ c with source := · }))
  | "field_ref" =>
    match v with
    | .null => .ok { c with fieldRef := none }
    | v => match ColumnRef.read v ⟨"/field_ref", []⟩ with
      | .ok ref => .ok { c with fieldRef := some ref }
      | .error e => .error (.fieldRef e)
  | "ident" => fit ((v.optional Json.asString?).map ({ c with ident := · }))
  | "id" => fit ((v.optional Json.asInt64?).map ({ c with id := · }))
  | "source_alias" => fit ((v.optional Json.asString?).map ({ c with sourceAlias := · }))
  | "fk_field_id" => fit ((v.optional Json.asInt64?).map ({ c with fkFieldId := · }))
  | "binning_info" => fit ((v.optional Binning.ofJson?).map ({ c with binning := · }))
  | "unit" => fit ((v.optional TemporalUnit.ofTag?).map ({ c with unit := · }))
  | "converted_timezone" =>
    fit ((v.optional Json.asString?).map ({ c with convertedTimezone := · }))
  | "aggregation_index" => fit ((v.optional Json.asNat?).map ({ c with aggregationIndex := · }))
  | "expression_name" => fit ((v.optional Json.asString?).map ({ c with expressionName := · }))
  | "options" => fit (v.asObject?.map fun o => { c with options := .ofList o })
  | _ => .ok { c with extra := c.extra.insert key v }

def ofJson (v : Json) : Except Unfit Column :=
  match v with
  | .obj entries => entries.foldlM readEntry {}
  | _ => .error .shape

def listOfJson (v : Json) : Except Unfit (List Column) :=
  match v with
  | .arr items => items.mapM ofJson
  | _ => .error .shape

end Column

end ResultSchema
