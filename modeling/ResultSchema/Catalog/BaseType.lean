import ResultSchema.Json.Basic

/-! # Column types

A closed vocabulary in a small hierarchy. The wildcard is its root and stands for an
unknown type.
-/

namespace ResultSchema

inductive BaseType
  | wildcard | text | number | integer | bigInteger | float | decimal | boolean | temporal
  | date | dateTime | dateTimeTz | time | structured | array
  deriving DecidableEq, Repr, Inhabited

namespace BaseType

def all : List BaseType :=
  [wildcard, text, number, integer, bigInteger, float, decimal, boolean, temporal, date,
    dateTime, dateTimeTz, time, structured, array]

def bareName : BaseType → String
  | wildcard => "*"
  | text => "Text"
  | number => "Number"
  | integer => "Integer"
  | bigInteger => "BigInteger"
  | float => "Float"
  | decimal => "Decimal"
  | boolean => "Boolean"
  | temporal => "Temporal"
  | date => "Date"
  | dateTime => "DateTime"
  | dateTimeTz => "DateTimeWithTZ"
  | time => "Time"
  | structured => "Structured"
  | array => "Array"

def name (t : BaseType) : String := "type/" ++ t.bareName

/-- The type of a name, which may be written with or without `type/`. -/
def ofName? (text : String) : Option BaseType :=
  all.find? fun t => text == t.name || text == t.bareName

theorem ofName?_name (t : BaseType) : ofName? t.name = some t := by cases t <;> decide +kernel

/-- The next more general type. -/
def parent? : BaseType → Option BaseType
  | wildcard => none
  | integer | float => some number
  | bigInteger => some integer
  | decimal => some float
  | date | dateTime | time => some temporal
  | dateTimeTz => some dateTime
  | text | number | boolean | temporal | structured | array => some wildcard

def ancestorsWithin : Nat → BaseType → List BaseType
  | 0, _ => []
  | n + 1, t => match t.parent? with
    | none => []
    | some p => p :: ancestorsWithin n p

/-- The more general types, nearest first. -/
def ancestors (t : BaseType) : List BaseType := ancestorsWithin all.length t

theorem ancestors_eq (t : BaseType) :
    t.ancestors = match t.parent? with
      | none => []
      | some p => p :: p.ancestors := by cases t <;> rfl

/-- Whether `t` is `s` or one of its descendants. -/
def isA (t s : BaseType) : Bool := t == s || t.ancestors.contains s

def isWildcard (t : BaseType) : Bool := t == wildcard

def isTemporal (t : BaseType) : Bool := t.isA temporal

def ofSample : Json → BaseType
  | .null => wildcard
  | .bool _ => boolean
  | .int _ => integer
  | .double _ => float
  | .str _ => text
  | .arr _ => array
  | .obj _ => structured

/-- The first type of the candidates that is not the wildcard. -/
def known? (candidates : List (Option BaseType)) : Option BaseType :=
  (candidates.filterMap id).find? (!·.isWildcard)

theorem known?_cons (t : Option BaseType) (rest : List (Option BaseType)) :
    known? (t :: rest) = (t.filter (!·.isWildcard)).or (known? rest) := by
  cases t with
  | none => rfl
  | some t => cases t <;> rfl

theorem filter_known? (candidates : List (Option BaseType)) :
    (known? candidates).filter (!·.isWildcard) = known? candidates := by
  cases h : known? candidates with
  | none => rfl
  | some t =>
    have ht := List.find?_some h
    exact Option.filter_eq_some_iff.mpr ⟨rfl, ht⟩

/-- The first known type of the candidates, else the wildcard. -/
def best (candidates : List (Option BaseType)) : BaseType := (known? candidates).getD wildcard

def toJson (t : BaseType) : Json := .str t.name

def ofJson? (v : Json) : Option BaseType := v.asString?.bind ofName?

def ofTag? (v : Json) : Option BaseType := v.asTag?.bind ofName?

end BaseType

end ResultSchema
