import ResultSchema.Column.Document
import ResultSchema.Resolve.Visible
import ResultSchema.Result.Native

/-! # Annotating results

The columns of a query are computed stage by stage along its chain of sources, and merged
with what is declared and with what the driver reports.
-/

namespace ResultSchema

structure Config where
  /-- Outside production, models with missing facts are errors. -/
  production : Bool := true
  maxStageDepth : Nat := Query.standardMaxDepth
  deriving DecidableEq, Repr

namespace Config

def readEntry (config : Config) (e : String × Json) : Option Config :=
  match e with
  | ("production", v) => v.asBool?.map ({ config with production := · })
  | ("max_stage_depth", v) => v.asNat?.map ({ config with maxStageDepth := · })
  | _ => some config

def ofJson? (v : Json) : Option Config := do
  let entries ← v.asRecord? ["production", "max_stage_depth"]
  entries.foldlM readEntry {}

def development : Config := { production := false }

end Config

/-- An execution result with the computed columns in place of the driver's. -/
structure AnnotatedResult where
  columns : List Column
  rows : List (List Json)
  extra : OrderedMap Json
  deriving DecidableEq

def AnnotatedResult.toJson (r : AnnotatedResult) : Json :=
  .obj ([("columns", .arr (r.columns.map Column.toJson)), ("rows", ExecutionResult.rowsJson r.rows)]
    ++ r.extra.entries)

/-- What annotation goes by. -/
structure Annotator where
  lexicon : Lexicon
  config : Config := {}

namespace Annotator

def checkDepth (a : Annotator) (s : Stage) : Except SchemaError Unit :=
  if a.config.maxStageDepth < s.depth then
    .error (.nestingTooDeep s.depth a.config.maxStageDepth)
  else .ok ()

/-- The columns that a stage selects, within the limit of nesting. -/
def stageColumns (a : Annotator) (s : Stage) : Except SchemaError (List Column) := do
  a.checkDepth s
  s.columns a.lexicon

/-- The column with its ident scoped to a model, unless it owns the ident. -/
def modelColumn (a : Annotator) (entityId : String) (c : Column) : Except SchemaError Column :=
  match c.ident with
  | some ident =>
    pure (if c.ownsIdent then c else { c with ident := some (Ident.modelScoped entityId ident) })
  | none =>
    if a.config.production then pure c else throw (.inconsistent (.columnWithoutIdent c.name))

/-- The columns that come out of a model. -/
def modelColumns (a : Annotator) (s : Stage) (columns : List Column) :
    Except SchemaError (List Column) :=
  match s.card.bind (·.entityId) with
  | some entityId => columns.mapM (a.modelColumn entityId)
  | none =>
    if a.config.production then pure columns else throw (.inconsistent .modelWithoutEntity)

/-- The columns that the driver reports for a table or a native source, none if it reports
none. -/
def reported (a : Annotator) (results : ExecutionResult) : Except SchemaError (List Column) :=
  if results.columns.isEmpty then pure [] else Native.columns a.lexicon results

/-- The columns of the source of a stage, given those of its source stage. -/
def sourceColumns (a : Annotator) (results : ExecutionResult) (s : Stage)
    (inner : Option (Except SchemaError (List Column))) : Except SchemaError (List Column) :=
  match s.source with
  | .stage _ => match inner with
    | some columns => (·.map Column.reselected) <$> columns
    | none => pure []
  | .native _ => a.reported results
  | .table _ => (·.map fun c => { c with source := some .fields }) <$> a.reported results
  | .none => pure []

/-- The columns that a stage passes on when it selects none. -/
def passedThrough (a : Annotator) (results : ExecutionResult) (s : Stage)
    (inner : Option (Except SchemaError (List Column))) : Except SchemaError (List Column) := do
  let columns ← a.sourceColumns results s inner
  pure (if columns.isEmpty then s.metadata else Merge.overlaid columns s.metadata)

/-- The columns of a stage, given those of its source stage. -/
def columnsOver (a : Annotator) (results : ExecutionResult) (s : Stage)
    (inner : Option (Except SchemaError (List Column))) : Except SchemaError (List Column) := do
  let selected ← s.columns a.lexicon
  let columns ←
    if selected.isEmpty then a.passedThrough results s inner
    else pure (Merge.declared selected s.metadata)
  let columns ← if s.isModel then a.modelColumns s columns else pure columns
  pure (dedupe columns)

theorem columnsOver_eq (a : Annotator) (results : ExecutionResult) (s : Stage)
    (inner : Option (Except SchemaError (List Column))) : a.columnsOver results s inner =
    s.columns a.lexicon >>= fun selected =>
    ((if selected.isEmpty then a.passedThrough results s inner
        else pure (Merge.declared selected s.metadata)) >>= fun columns =>
      if s.isModel then a.modelColumns s columns else pure columns) >>= fun columns =>
    pure (dedupe columns) := by
  unfold columnsOver
  refine bind_congr fun selected => ?_
  rw [bind_assoc]
  cases selected.isEmpty <;> cases s.isModel <;> rfl

/-- The columns of a stage before the driver's are laid over them. -/
def chainColumns (a : Annotator) (results : ExecutionResult) : Stage → Except SchemaError (List Column) :=
  Stage.foldChain (a.columnsOver results)

theorem chainColumns_eq (a : Annotator) (results : ExecutionResult) (s : Stage) :
    a.chainColumns results s =
      a.columnsOver results s (s.sourceStage?.map (a.chainColumns results)) :=
  Stage.foldChain_eq _ s

/-- The columns of a query with given results. -/
def columnInfo (a : Annotator) (q : Query) (results : ExecutionResult) :
    Except SchemaError (List Column) :=
  match q with
  | .native _ => Native.columns a.lexicon results
  | .structural s => do
    a.checkDepth s
    let columns ← a.chainColumns results s
    pure (dedupe (Merge.executed columns results.columns))

/-- Fails when the rows are not as wide as the computed columns. -/
def checkWidth (columns : List Column) (results : ExecutionResult) : Except SchemaError Unit :=
  match results.rowWidth? with
  | none => .ok ()
  | some width =>
    if width = columns.length then .ok ()
    else .error (.mismatch {
      expectedCount := columns.length
      actualCount := width
      expectedColumns := columns.map (·.name)
      actualColumns := results.columnNames })

/-- Puts the computed columns in place of the driver's; rows and other keys stay. -/
def annotate (a : Annotator) (q : Query) (results : ExecutionResult) :
    Except SchemaError AnnotatedResult := do
  let columns ← a.columnInfo q results
  checkWidth columns results
  pure { columns, rows := results.rows, extra := results.extra }

def executeAndAnnotate (a : Annotator) (q : Query) (run : Query → Except String ExecutionResult) :
    Except SchemaError AnnotatedResult :=
  match run q with
  | .ok results => a.annotate q results
  | .error text => .error (.execution text)

end Annotator

end ResultSchema
