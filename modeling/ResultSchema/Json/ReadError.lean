import ResultSchema.Json.Location

/-! # Errors of reading a query document

An error says what is wrong, where, and with which value. Its text quotes the value,
clipped when it is long.
-/

namespace ResultSchema

inductive ReadFault
  | unknownStageKind (kind : String)
  | tooDeep (depth max : Nat)
  | optionsNotObject
  | unknownBaseType
  | joinAliasNotString
  | sourceFieldNotId
  | unknownTemporalUnit
  | binningNotObject
  | unknownBinningStrategy
  | fieldWithoutId
  | fieldArguments
  | columnRefNotArray
  | unknownColumnRef
  | expressionWithoutName
  | aggregationWithoutIndex
  | notClause
  | clauseWithoutOperator
  | valueMissing
  | intervalParts
  | casePairsMissing
  | caseBranchShape
  | aggregationOptionsEmpty
  | joinNotObject
  | joinWithoutAlias
  | stageNotObject
  | sourceTableNotId
  | notArray (key : String)
  | expressionsNotObject
  | columnMetadata (detail : Option String)
  | structuralPartMissing
  | nativePartMissing
  deriving DecidableEq, Repr

def ReadFault.message : ReadFault → String
  | unknownStageKind _ => "Unknown query type"
  | tooDeep _ _ => "Stage nesting too deep"
  | optionsNotObject => "Field options must be an object"
  | unknownBaseType => "Unknown base type"
  | joinAliasNotString => "Join alias must be a string"
  | sourceFieldNotId => "Source field must be an integer id"
  | unknownTemporalUnit => "Unknown temporal unit"
  | binningNotObject => "Binning options must be an object"
  | unknownBinningStrategy => "Unknown binning strategy"
  | fieldWithoutId => "Field reference needs an integer id or a name"
  | fieldArguments => "Field reference takes at most two arguments"
  | columnRefNotArray => "Column reference must be an array"
  | unknownColumnRef => "Unknown column reference"
  | expressionWithoutName => "Expression reference needs a name"
  | aggregationWithoutIndex => "Aggregation reference needs an index"
  | notClause => "Expected a literal or a clause array"
  | clauseWithoutOperator => "Clause must start with an operator name"
  | valueMissing => "Value clause needs a value"
  | intervalParts => "Interval needs an amount and a unit"
  | casePairsMissing => "Case needs a list of [condition, value] pairs"
  | caseBranchShape => "Case branch must be a [condition, value] pair"
  | aggregationOptionsEmpty => "aggregation-options needs a clause"
  | joinNotObject => "Join must be an object"
  | joinWithoutAlias => "Join needs an alias"
  | stageNotObject => "Stage must be an object"
  | sourceTableNotId => "source-table must be an integer id"
  | notArray key => key ++ " must be an array"
  | expressionsNotObject => "expressions must be an object"
  | columnMetadata none => "Invalid column metadata"
  | columnMetadata (some detail) => "Invalid column metadata: " ++ detail
  | structuralPartMissing => "Structural query needs a `query` key"
  | nativePartMissing => "Native query needs a `native` key"

structure ReadError where
  fault : ReadFault
  location : Location
  value : Json
  deriving DecidableEq

namespace ReadError

def message (e : ReadError) : String := e.fault.message

def path (e : ReadError) : String := e.location.text

/-- The offending value as compact JSON of at most 80 bytes. -/
def text (e : ReadError) : String := e.value.excerpt

def display (e : ReadError) : String :=
  "ParseError: " ++ e.message ++ "\n  at " ++ e.path ++ " -> '" ++ e.text ++ "'"

end ReadError

abbrev Reading := Except ReadError

def Reading.require {α : Type} (o : Option α) (fault : ReadFault) (place : Location) (v : Json) :
    Reading α :=
  match o with
  | some a => .ok a
  | none => .error ⟨fault, place, v⟩

@[simp] theorem Reading.require_some {α : Type} (a : α) (fault : ReadFault) (place : Location)
    (v : Json) : Reading.require (some a) fault place v = .ok a := rfl

end ResultSchema
