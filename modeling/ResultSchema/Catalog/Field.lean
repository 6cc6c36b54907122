import ResultSchema.Catalog.BaseType

/-! # Catalog fields

What is known of a stored field. A nested field names the field that contains it.
-/

namespace ResultSchema

structure CatalogField where
  id : Int64
  name : String
  displayName : String
  baseType : BaseType
  effectiveType : Option BaseType := none
  coercionStrategy : Option String := none
  parentId : Option Int64 := none
  ident : Option String := none
  deriving DecidableEq, Repr

/-- A catalog answers each id with at most one field. -/
abbrev Catalog := Int64 → Option CatalogField

namespace CatalogField

def withCoercion (f : CatalogField) (strategy : String) (effectiveType : BaseType) : CatalogField :=
  { f with coercionStrategy := some strategy, effectiveType := some effectiveType }

/-- The keys of a catalog field in the order in which they are written. -/
def keys : List String :=
  ["id", "name", "display_name", "base_type", "effective_type", "coercion_strategy", "parent_id",
    "ident"]

def ofJson? (v : Json) : Option CatalogField := do
  let entries ← v.asRecord? keys
  let maybe {α : Type} (key : String) (read : Json → Option α) : Option (Option α) :=
    ((entries.lookup key).getD .null).optional read
  pure {
    id := ← (← entries.lookup "id").asInt64?
    name := ← (← entries.lookup "name").asString?
    displayName := ← (← entries.lookup "display_name").asString?
    baseType := ← BaseType.ofTag? (← entries.lookup "base_type")
    effectiveType := ← maybe "effective_type" BaseType.ofTag?
    coercionStrategy := ← maybe "coercion_strategy" Json.asString?
    parentId := ← maybe "parent_id" Json.asInt64?
    ident := ← maybe "ident" Json.asString? }

def toJson (f : CatalogField) : Json :=
  let orNull {α : Type} (write : α → Json) (o : Option α) : Json := (o.map write).getD .null
  .obj [
    ("id", .ofInt64 f.id),
    ("name", .str f.name),
    ("display_name", .str f.displayName),
    ("base_type", f.baseType.toJson),
    ("effective_type", orNull BaseType.toJson f.effectiveType),
    ("coercion_strategy", orNull .str f.coercionStrategy),
    ("parent_id", orNull .ofInt64 f.parentId),
    ("ident", orNull .str f.ident)]

end CatalogField

structure FieldTable where
  fields : List CatalogField := []
  deriving Repr

namespace FieldTable

def insertField (f : CatalogField) : List CatalogField → List CatalogField
  | [] => [f]
  | g :: rest => if g.id = f.id then f :: rest else g :: insertField f rest

/-- Adds a field; it takes the place of a field with the same id. -/
def insert (t : FieldTable) (f : CatalogField) : FieldTable := ⟨insertField f t.fields⟩

def ofList (fields : List CatalogField) : FieldTable := fields.foldl insert {}

def size (t : FieldTable) : Nat := t.fields.length

def isEmpty (t : FieldTable) : Bool := t.fields.isEmpty

def catalog (t : FieldTable) : Catalog := fun id => t.fields.find? (·.id == id)

end FieldTable

end ResultSchema
