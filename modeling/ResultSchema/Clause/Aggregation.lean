import ResultSchema.Clause.Reader

/-! # Aggregations

A clause with the names and the ident that the query gives to its column.
-/

namespace ResultSchema

structure Aggregation where
  clause : Clause
  name : Option String := none
  displayName : Option String := none
  ident : Option String := none

namespace Aggregation

/-- Reads a clause, which may be wrapped to give the column names of its own. -/
def read (v : Json) (loc : Location) : Reading Aggregation :=
  match v with
  | .arr [.str "aggregation-options"] => throw ⟨.aggregationOptionsEmpty, loc, v⟩
  | .arr (.str "aggregation-options" :: inner :: rest) => do
    let clause ← Clause.read inner (loc.index 1)
    let given (key : String) : Option String := do (← (← rest.head?).get? key).asString?
    pure { clause, name := given "name", displayName := given "display-name" }
  | _ => do
    let clause ← Clause.read v loc
    pure { clause }

end Aggregation

end ResultSchema
