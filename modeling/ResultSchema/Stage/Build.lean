import ResultSchema.Stage.Basic

/-! # Building stages

Stages put together part by part instead of read from a document.
-/

namespace ResultSchema

namespace Join

variable {σ : Type}

def explicit (joinAlias : String) (stage : σ) (condition : Clause) : Join σ :=
  { joinAlias, stage, condition := some condition }

def implicit (joinAlias : String) (stage : σ) (fkFieldId : Int64) : Join σ :=
  { joinAlias, stage, fkFieldId := some fkFieldId }

def withIdent (j : Join σ) (ident : String) : Join σ := { j with ident := some ident }

end Join

namespace Aggregation

def named (a : Aggregation) (name : String) : Aggregation := { a with name := some name }

def withIdent (a : Aggregation) (ident : String) : Aggregation := { a with ident := some ident }

end Aggregation

def Query.source : Query → Source Stage
  | structural s => .stage s
  | native query => .native query

namespace Stage

def ofTable (id : Int64) : Stage := { source := .table id }

def ofQuery (q : Query) : Stage := { source := q.source }

def withBreakout (s : Stage) (clause : Clause) : Stage :=
  { s with breakouts := s.breakouts ++ [{ clause }] }

def withAggregation (s : Stage) (a : Aggregation) : Stage :=
  { s with aggregations := s.aggregations ++ [a] }

/-- Names an expression; one of the same name is replaced in place. -/
def withExpression (s : Stage) (name : String) (clause : Clause) : Stage :=
  { s with expressions := s.expressions.insert name { clause } }

def withField (s : Stage) (clause : Clause) : Stage := { s with fields := s.fields ++ [clause] }

def withJoin (s : Stage) (j : Join Stage) : Stage := { s with joins := s.joins ++ [j] }

def withMetadata (s : Stage) (columns : List Column) : Stage := { s with metadata := columns }

def withCard (s : Stage) (card : SourceCard) : Stage := { s with card := some card }

end Stage

end ResultSchema
