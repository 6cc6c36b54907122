import ResultSchema.Resolve.Columns

/-! # Scopes of nested stages

The scope of a stage is built from those of the stages it reads and joins. What each stage
exposes may be kept under its path, so that it is computed once.
-/

namespace ResultSchema

/-- The scope of a stage and the columns that it exposes. -/
structure Survey (m : Type → Type) where
  scope : Scope m
  visible : m (List Column)

namespace Stage

variable {m : Type → Type} [Monad m] [MonadExceptOf SchemaError m]

/-- The survey of a stage that stands at a path; `keep` may remember what a path exposes. -/
def survey (lexicon : Lexicon) (keep : StagePath → m (List Column) → m (List Column)) :
    Stage → StagePath → Survey m :=
  fold fun stage source joined path =>
    let source := source.map fun s => s (path ++ [.source])
    let joined := joined.zipIdx.map fun (s, i) => (s (path ++ [.join i])).visible
    let scope : Scope m := {
      lexicon, stage
      source := source.map (·.visible)
      joins := stage.joins.zipWith ScopedJoin.mk joined
        ++ (source.map (·.scope.joins)).getD [] }
    { scope, visible := keep path scope.exposed }

def scope (lexicon : Lexicon) (s : Stage) : Scope (Except SchemaError) :=
  (s.survey lexicon (fun _ columns => columns) []).scope

def visible (lexicon : Lexicon) (s : Stage) : Except SchemaError (List Column) :=
  (s.survey lexicon (fun _ columns => columns) []).visible

def columns (lexicon : Lexicon) (s : Stage) : Except SchemaError (List Column) :=
  (s.scope lexicon).columns

end Stage

/-- The exposed columns found so far, by the path of their stage. -/
structure Memo where
  visible : List (StagePath × List Column) := []

namespace Memo

def find? (memo : Memo) (path : StagePath) : Option (List Column) := memo.visible.lookup path

def remember (memo : Memo) (path : StagePath) (columns : List Column) : Memo :=
  ⟨(path, columns) :: memo.visible⟩

end Memo

/-- Resolution that remembers exposed columns. An error is not remembered, but what was found
before it is. -/
abbrev Remembering := ExceptT SchemaError (StateM Memo)

namespace Remembering

def keep (path : StagePath) (compute : Remembering (List Column)) : Remembering (List Column) := do
  match (← get).find? path with
  | some columns => pure columns
  | none =>
    let columns ← compute
    modify (·.remember path columns)
    pure columns

/-- The survey of the stage at a path with remembered columns. -/
def survey (lexicon : Lexicon) (s : Stage) (path : StagePath) : Survey Remembering :=
  s.survey lexicon keep path

end Remembering

end ResultSchema
