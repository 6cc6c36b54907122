import ResultSchema.Clause.Description
import ResultSchema.Column.Names
import ResultSchema.Resolve.Scope

/-! # Columns of a stage

A stage has the columns of its breakouts, then of its aggregations, then of its field list.
A stage that selects nothing passes on what it reads. What ends in `By` is a single step, given the
answers to what it asks for: the column of a field reference, the label or the typing of a clause,
the columns of another stage. A scope lets the steps answer one another.
-/

namespace ResultSchema

namespace Column

def ofExpression (name : String) (options : FieldOptions) (e : NamedExpression) (typing : Typing) :
    Column :=
  let c := Column.withTyping { name, displayName := name } typing
  { c with
    fieldRef := some (.expression name options.withoutNamespaced)
    expressionName := some name
    ident := e.ident
    unit := options.temporalUnit.or c.unit
    binning := options.binning.or c.binning }

def ofAggregation (index : Nat) (a : Aggregation) (description : Description) : Column :=
  let c : Column := {
    name := a.name.getD description.name
    displayName := a.displayName.getD description.displayName
    source := some .aggregation
    fieldRef := some (.aggregation index)
    aggregationIndex := some index
    ident := a.ident }
  c.withTyping description.typing.typeOnly

end Column

section

variable {m : Type → Type} [Monad m] [MonadExceptOf SchemaError m]

def Aggregation.columnBy (a : Aggregation) (labelOf : Clause → m String)
    (typingOf : Clause → m Typing) (index : Nat) : m Column := do
  let description ← a.clause.describeBy labelOf typingOf
  pure (.ofAggregation index a description)

def Breakout.columnBy (b : Breakout) (columnOf : Clause → m Column) : m Column := do
  let c ← columnOf b.clause
  pure { c with source := some .breakout, ident := b.ident.or c.ident }

def Clause.listedBy (clause : Clause) (columnOf : Clause → m Column) : m Column := do
  let c ← columnOf clause
  pure { c with source := some .fields }

namespace Stage

/-- The typing of a named expression while those in `expanding` are being typed. A name met again
has an unknown type. -/
def namedTypingBy (s : Stage) (typingOf : List String → Clause → m Typing)
    (expanding : List String) (name : String) : m Typing :=
  match s.expressions.get? name with
  | none => pure {}
  | some e =>
    if name ∈ expanding then pure {}
    else Typing.typeOnly <$> typingOf (name :: expanding) e.clause

def expressionBy (s : Stage) (typingOf : Clause → m Typing) (name : String)
    (options : FieldOptions) : m Column :=
  match s.expressions.get? name with
  | none => throw (.unresolved (.expression name))
  | some e => do
    let typing ← typingOf e.clause
    pure (.ofExpression name options e typing)

def columnBy (s : Stage) (fieldOf : FieldRef → m Column) (typingOf : Clause → m Typing)
    (aggregationOf : Nat → Aggregation → m Column) : Clause → m Column
  | .field f => fieldOf f
  | .expression name options => s.expressionBy typingOf name options
  | .aggregation index => match s.aggregations[index]? with
    | some a => aggregationOf index a
    | none => throw (.unresolved (.aggregation index s.aggregations.length))
  | c => throw (.unresolved (.unselectable c.display))

def columnsBy (s : Stage) (columnOf : Clause → m Column)
    (aggregationOf : Nat → Aggregation → m Column) : m (List Column) := do
  let breakouts ← s.breakouts.mapM (·.columnBy columnOf)
  let aggregations ← s.aggregations.zipIdx.mapM fun (a, i) => aggregationOf i a
  let fields ← s.fields.mapM (·.listedBy columnOf)
  pure (dedupe (breakouts ++ aggregations ++ fields))

def exposedBy (s : Stage) (columns : m (List Column)) (source : Option (m (List Column))) :
    m (List Column) := do
  let columns ← columns
  if !columns.isEmpty then pure columns
  else if !s.metadata.isEmpty then pure s.metadata
  else match source with
    | some source => (·.map Column.reselected) <$> source
    | none => pure []

end Stage

end

namespace Scope

variable {m : Type → Type} [Monad m] [MonadExceptOf SchemaError m]

def fieldTyping (scope : Scope m) (f : FieldRef) : m Typing := Typing.ofColumn <$> scope.field f

/-- The typing of a named expression while those in `expanding` are being typed; `left` is
the number of names that may still be expanded. -/
def namedTyping (scope : Scope m) : Nat → List String → String → m Typing
  | 0, _, _ => pure {}
  | left + 1, expanding, name => scope.stage.namedTypingBy
      (fun expanding c => c.typing scope.fieldTyping (namedTyping scope left expanding))
      expanding name

/-- The typing of a clause; no more names are expanded than the stage declares. -/
def typing (scope : Scope m) (c : Clause) : m Typing :=
  c.typing scope.fieldTyping (scope.namedTyping scope.stage.expressions.entries.length [])

def label (scope : Scope m) : Clause → m String :=
  Clause.label (fun f => Column.longDisplayName <$> scope.field f) scope.typing

def expression (scope : Scope m) : String → FieldOptions → m Column :=
  scope.stage.expressionBy scope.typing

def aggregation (scope : Scope m) (index : Nat) (a : Aggregation) : m Column :=
  a.columnBy scope.label scope.typing index

/-- The column that a clause selects. -/
def column (scope : Scope m) : Clause → m Column :=
  scope.stage.columnBy scope.field scope.typing scope.aggregation

def breakout (scope : Scope m) (b : Breakout) : m Column := b.columnBy scope.column

def listed (scope : Scope m) (clause : Clause) : m Column := clause.listedBy scope.column

/-- The columns that the stage selects, none if it selects nothing. -/
def columns (scope : Scope m) : m (List Column) :=
  scope.stage.columnsBy scope.column scope.aggregation

/-- The columns that the stage shows to the stage around it: those it selects, else the
declared columns of its source, else those of the source stage selected again. -/
def exposed (scope : Scope m) : m (List Column) := scope.stage.exposedBy scope.columns scope.source

end Scope

end ResultSchema
