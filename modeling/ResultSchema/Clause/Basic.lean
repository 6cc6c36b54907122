import ResultSchema.Clause.Literal
import ResultSchema.Reference.FieldRef

/-! # Clauses

Expression trees: literals, references, intervals, cases and calls of named operators.
-/

namespace ResultSchema

structure TypeHint where
  baseType : Option BaseType := none
  effectiveType : Option BaseType := none
  deriving DecidableEq, Repr

inductive Clause
  | literal (l : Literal)
  | value (inner : Clause) (hint : TypeHint)
  | field (f : FieldRef)
  /-- A reference to a named expression of the same stage. -/
  | expression (name : String) (options : FieldOptions)
  /-- A reference to an aggregation of the same stage, by position. -/
  | aggregation (index : Nat)
  | interval (amount : Int64) (unit : TemporalUnit)
  | case (branches : List (Clause × Clause)) (fallback : Option Clause)
  | call (op : String) (args : List Clause)

namespace Clause

def isNull : Clause → Bool
  | literal .null => true
  | value inner _ => inner.isNull
  | _ => false

def op? : Clause → Option String
  | call op _ => some op
  | _ => none

mutual

def display : Clause → String
  | literal l => l.display
  | value inner _ => display inner
  | field f => "field(" ++ f.id.display ++ ")"
  | expression name _ => "expression(\"" ++ name ++ "\")"
  | aggregation index => "aggregation(" ++ toString index ++ ")"
  | interval amount unit => "interval(" ++ toString amount ++ ", " ++ unit.displayName ++ ")"
  | case branches _ => "case(<" ++ toString branches.length ++ " branches>)"
  | call op args => op ++ "(" ++ String.intercalate ", " (displayArgs args) ++ ")"
termination_by structural c => c

def displayArgs : List Clause → List String
  | [] => []
  | c :: rest => display c :: displayArgs rest
termination_by structural args => args

end

end Clause

end ResultSchema
