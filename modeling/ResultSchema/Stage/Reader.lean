import ResultSchema.Column.Document
import ResultSchema.Stage.Basic

/-! # Reading queries

Stages are read down to a limit of nesting. The parts of a stage are read in a fixed
order, so the first fault in that order is reported.
-/

namespace ResultSchema

namespace Stage

/-- The items under a key; null and absence stand for none. -/
def readItems (entries : List (String × Json)) (key : String) (loc : Location) :
    Reading (List Json) :=
  match entries.lookup key with
  | none => pure []
  | some .null => pure []
  | some (.arr items) => pure items
  | some v => throw ⟨.notArray key, loc.key key, v⟩

/-- Reads every item under a key at its own location. -/
def readEach {α : Type} (read : Nat → Json → Location → Reading α)
    (entries : List (String × Json)) (key : String) (loc : Location) : Reading (List α) := do
  let items ← readItems entries key loc
  items.zipIdx.mapM fun (v, i) => read i v ((loc.key key).index i)

/-- Idents by position or by name; an array gives them in order. -/
def readIdents (v : Option Json) : List (String × String) :=
  match v with
  | some (.obj entries) => entries.filterMap fun (key, v) => v.asString?.map (key, ·)
  | some (.arr items) => items.zipIdx.filterMap fun (v, i) => v.asString?.map (toString i, ·)
  | _ => []

def readColumns (v : Json) (loc : Location) : Reading (List Column) :=
  match Column.listOfJson v with
  | .ok columns => pure columns
  | .error e => throw ⟨.columnMetadata e.detail?, loc, v⟩

def readMetadata (entries : List (String × Json)) (loc : Location) : Reading (List Column) :=
  match entries.lookup "source-metadata" with
  | none => pure []
  | some v => readColumns v (loc.key "source-metadata")

/-- The saved query named in a stage, if any of its facts is there. -/
def readCard (entries : List (String × Json)) : Option SourceCard :=
  let cardId := (entries.lookup "source-card-id").bind Json.asInt64?
  let entityId := (entries.lookup "source-card-entity-id").bind Json.asString?
  let model := ((entries.lookup "source-query/model?").bind Json.asBool?).getD false
  if cardId.isSome || entityId.isSome || model then some { cardId, entityId, model } else none

def readExpressions (entries : List (String × Json)) (loc : Location) :
    Reading (OrderedMap NamedExpression) := do
  let idents := readIdents (entries.lookup "expression-idents")
  match entries.lookup "expressions" with
  | none => pure .empty
  | some v =>
    let named ← Reading.require v.asObject? .expressionsNotObject (loc.key "expressions") v
    named.foldlM (fun expressions (name, v) => do
      let clause ← Clause.read v ((loc.key "expressions").key name)
      pure (expressions.insert name { clause, ident := idents.lookup name })) .empty

end Stage

/-- The condition of a join; null and absence stand for none. -/
def Join.readCondition (entries : List (String × Json)) (loc : Location) :
    Reading (Option Clause) :=
  match entries.lookup "condition" with
  | none => pure none
  | some .null => pure none
  | some v => some <$> Clause.read v (loc.key "condition")

/-- Reads a join whose stage is read by `readStage` from the same value. -/
def Join.readWith {σ : Type} (readStage : Json → Location → Reading σ) (v : Json)
    (loc : Location) : Reading (Join σ) := do
  let entries ← Reading.require v.asObject? .joinNotObject loc v
  let joinAlias ← Reading.require ((entries.lookup "alias").bind Json.asString?) .joinWithoutAlias loc v
  let condition ← Join.readCondition entries loc
  let stage ← readStage v loc
  pure {
    joinAlias, stage, condition
    fkFieldId := (entries.lookup "fk-field-id").bind Json.asInt64?
    ident := (entries.lookup "ident").bind Json.asString? }

/-- Reads a nested source, which is native when it has a key for that. -/
def Source.readWith {σ : Type} (readStage : Json → Location → Reading σ) (v : Json)
    (loc : Location) : Reading (Source σ) :=
  match v.get? "native" with
  | .some query => pure (.native query)
  | .none => .stage <$> readStage v loc

def Source.readTable {σ : Type} (entries : List (String × Json)) (loc : Location) :
    Reading (Source σ) :=
  match entries.lookup "source-table" with
  | Option.none => pure .none
  | some v => do
    let id ← Reading.require v.asInt64? .sourceTableNotId (loc.key "source-table") v
    pure (.table id)

theorem Source.stage?_of_readTable {σ : Type} {entries : List (String × Json)} {loc : Location}
    {source : Source σ} (h : readTable entries loc = .ok source) : source.stage? = Option.none := by
  unfold readTable at h
  split at h
  · cases h
    rfl
  · rename_i v _
    unfold Reading.require at h
    split at h <;> cases h
    rfl

/-- The source of a stage: a nested query takes the place of a table. -/
def Source.readEntries {σ : Type} (readStage : Json → Location → Reading σ)
    (entries : List (String × Json)) (loc : Location) : Reading (Source σ) := do
  let table ← Source.readTable entries loc
  match entries.lookup "source-query" with
  | Option.none => pure table
  | some v => Source.readWith readStage v (loc.key "source-query")

namespace Stage

/-- Reads a stage at that depth when `levels` more levels are allowed. -/
def readWithin (levels : Nat) (v : Json) (loc : Location) (depth max : Nat) : Reading Stage :=
  match levels with
  | 0 => throw ⟨.tooDeep depth max, loc, v⟩
  | levels + 1 => do
    let entries ← Reading.require v.asObject? .stageNotObject loc v
    let inner (v : Json) (loc : Location) : Reading Stage := readWithin levels v loc (depth + 1) max
    let source ← Source.readEntries inner entries loc
    let metadata ← readMetadata entries loc
    let joins ← readEach (fun _ => Join.readWith inner) entries "joins" loc
    let breakoutIdents := readIdents (entries.lookup "breakout-idents")
    let breakouts ← readEach (fun i v loc => do
      let clause ← Clause.read v loc
      pure { clause, ident := breakoutIdents.lookup (toString i) : Breakout }) entries "breakout" loc
    let aggregationIdents := readIdents (entries.lookup "aggregation-idents")
    let aggregations ← readEach (fun i v loc => do
      let aggregation ← Aggregation.read v loc
      pure { aggregation with ident := aggregationIdents.lookup (toString i) })
      entries "aggregation" loc
    let expressions ← readExpressions entries loc
    let fields ← readEach (fun _ => Clause.read) entries "fields" loc
    pure {
      source, metadata, card := readCard entries, joins, breakouts, aggregations, expressions,
      fields }

/-- Reads a stage that stands at the given depth, where `max` is the deepest one allowed. -/
def read (v : Json) (loc : Location) (depth max : Nat) : Reading Stage :=
  readWithin (max + 1 - depth) v loc depth max

end Stage

def Join.read (v : Json) (loc : Location) (depth max : Nat) : Reading (Join Stage) :=
  Join.readWith (fun v loc => Stage.read v loc (depth + 1) max) v loc

namespace Query

/-- Reads a nested query, which carries no type. -/
def readInner (v : Json) (loc : Location) (depth max : Nat) : Reading Query :=
  match v.get? "native" with
  | some query => pure (native query)
  | none => structural <$> Stage.read v loc depth max

def read (v : Json) (max : Nat) : Reading Query := do
  let place (key : String) : Location := ⟨"", [.key key]⟩
  let kind ← Reading.require ((v.get? "type").bind Json.asString?) (.unknownStageKind "")
    (place "type") v
  match kind with
  | "query" =>
    let inner ← Reading.require (v.get? "query") .structuralPartMissing (place "query") v
    structural <$> Stage.read inner (place "query") 1 max
  | "native" =>
    let query ← Reading.require (v.get? "native") .nativePartMissing (place "native") v
    pure (native query)
  | other => throw ⟨.unknownStageKind other, place "type", v⟩

end Query

end ResultSchema
