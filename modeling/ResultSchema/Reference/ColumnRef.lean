import ResultSchema.Reference.FieldRef

/-! # Column references

What selects a result column again: a field, a named expression, or an aggregation by its
position.
-/

namespace ResultSchema

inductive ColumnRef
  | field (f : FieldRef)
  | expression (name : String) (options : FieldOptions)
  | aggregation (index : Nat)
  deriving DecidableEq

namespace ColumnRef

def byName (name : String) (options : FieldOptions) : ColumnRef := field ⟨.name name, options⟩

def field? : ColumnRef → Option FieldRef
  | field f => some f
  | _ => none

def mapOptions (g : FieldOptions → FieldOptions) : ColumnRef → ColumnRef
  | field f => field { f with options := g f.options }
  | r => r

def read (v : Json) (loc : Location) : Reading ColumnRef := do
  let items ← Reading.require v.asArray? .columnRefNotArray loc v
  match items with
  | .str "field" :: args => pure (field (← FieldRef.readArgs args loc v))
  | .str "expression" :: args =>
    let name ← Reading.require (args[0]?.bind Json.asString?) .expressionWithoutName loc v
    let options ← match args[1]? with
      | some o => FieldOptions.read o (loc.index 2)
      | none => pure {}
    pure (expression name options)
  | .str "aggregation" :: args =>
    let index ← Reading.require (args[0]?.bind Json.asNat?) .aggregationWithoutIndex loc v
    pure (aggregation index)
  | _ => throw ⟨.unknownColumnRef, loc, v⟩

def toJson : ColumnRef → Json
  | field f => f.toJson
  | expression name options =>
    .arr ([.str "expression", .str name] ++ if options.isEmpty then [] else [options.toJson])
  | aggregation index => .arr [.str "aggregation", .ofNat index]

end ColumnRef

/-- The part of a reference that says which column is meant. -/
inductive RefKey
  | field (id : FieldId) (joinAlias : Option String)
  | expression (name : String)
  | aggregation (index : Nat)
  /-- A column without reference is known by its name. -/
  | name (name : String)
  deriving DecidableEq, Repr

def ColumnRef.key : ColumnRef → RefKey
  | field f => .field f.id f.options.joinAlias
  | expression name _ => .expression name
  | aggregation index => .aggregation index

end ResultSchema
