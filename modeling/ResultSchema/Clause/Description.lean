import ResultSchema.Clause.Typing

/-! # Descriptions of aggregations

Each aggregate has a column name, a label made from its operand, and a type of its own or
that of the operand. Other clauses are described as expressions.
-/

namespace ResultSchema

inductive Aggregate
  | count | cumCount | distinct | countWhere | sum | cumSum | sumWhere | min | max | avg
  | median | stddev | var | share
  deriving DecidableEq, Repr

/-- The name, long display name and type of an aggregation. -/
structure Description where
  name : String
  displayName : String
  typing : Typing
  deriving DecidableEq, Repr

namespace Aggregate

def all : List Aggregate :=
  [count, cumCount, distinct, countWhere, sum, cumSum, sumWhere, min, max, avg, median, stddev,
    var, share]

def op : Aggregate → String
  | count => "count"
  | cumCount => "cum-count"
  | distinct => "distinct"
  | countWhere => "count-where"
  | sum => "sum"
  | cumSum => "cum-sum"
  | sumWhere => "sum-where"
  | min => "min"
  | max => "max"
  | avg => "avg"
  | median => "median"
  | stddev => "stddev"
  | var => "var"
  | share => "share"

def ofOp? (text : String) : Option Aggregate := all.find? (·.op == text)

/-- The name of the column; cumulative and distinct counts and sums share a name. -/
def columnName : Aggregate → String
  | cumCount => "count"
  | distinct => "count"
  | cumSum => "sum"
  | a => a.op

def label (a : Aggregate) (operand : Option String) : String :=
  let named (name : String) : String :=
    match operand with
    | some operand => name ++ " of " ++ operand
    | none => name
  match a with
  | count => named "Count"
  | cumCount => named "Cumulative count"
  | distinct => named "Distinct values"
  | countWhere => "Count of rows matching condition"
  | sum => named "Sum"
  | cumSum => named "Cumulative sum"
  | sumWhere => named "Sum" ++ " matching condition"
  | min => named "Min"
  | max => named "Max"
  | avg => named "Average"
  | median => named "Median"
  | stddev => named "Standard deviation"
  | var => named "Variance"
  | share => "Percentage of rows matching condition"

/-- The type of the aggregate, if it does not depend on the operand. -/
def ownType? : Aggregate → Option BaseType
  | count | cumCount | distinct | countWhere => some .bigInteger
  | sum | cumSum | sumWhere | min | max => none
  | avg | median | stddev | var | share => some .float

/-- The description, given the label of the operand and the way to type it. -/
def describe {m : Type → Type} [Monad m] (a : Aggregate) (operand : Option String)
    (operandTyping : m Typing) : m Description := do
  let typing ← match a.ownType? with
    | some t => pure (.ofType t)
    | none => operandTyping
  pure { name := a.columnName, displayName := a.label operand, typing }

end Aggregate

namespace Clause

variable {m : Type → Type} [Monad m]

/-- The text of a call of an operator that is no aggregate, from the texts of its operands. -/
def callLabel (op : String) (parts : List String) : String :=
  if op ∈ ["+", "-", "*", "/"] ∧ 2 ≤ parts.length then String.intercalate (" " ++ op ++ " ") parts
  else op ++ "(" ++ String.intercalate ", " parts ++ ")"

def callLabelBy (op : String) (description : Aggregate → m Description) (parts : m (List String)) :
    m String :=
  match Aggregate.ofOp? op with
  | some a => Description.displayName <$> description a
  | none => callLabel op <$> parts

def firstOf (typingOf : Clause → m Typing) : List Clause → m Typing
  | [] => pure {}
  | first :: _ => typingOf first

def firstLabelBy (labelOf : Clause → m String) : List Clause → m (Option String)
  | [] => pure none
  | first :: _ => some <$> labelOf first

def aggregateBy (labelOf : Clause → m String) (typingOf : Clause → m Typing) (a : Aggregate)
    (args : List Clause) : m Description := do
  let operand ← firstLabelBy labelOf args
  a.describe operand (firstOf typingOf args)

def describeBy (labelOf : Clause → m String) (typingOf : Clause → m Typing) (c : Clause) :
    m Description :=
  let asExpression : m Description := do
    let displayName ← labelOf c
    let typing ← typingOf c
    pure { name := "expression", displayName, typing }
  match c with
  | call op args => match Aggregate.ofOp? op with
    | some a => aggregateBy labelOf typingOf a args
    | none => asExpression
  | _ => asExpression

mutual

/-- The label of a clause as the operand of an aggregation. -/
def label (labelOf : FieldRef → m String) (typingOf : Clause → m Typing) : Clause → m String
  | literal l => pure l.display
  | value inner _ => label labelOf typingOf inner
  | field f => labelOf f
  | expression name _ => pure name
  | aggregation index => pure (display (aggregation index))
  | interval amount unit => pure (display (interval amount unit))
  | case branches fallback => pure (display (case branches fallback))
  | call op args =>
    callLabelBy op (fun a => do
      let operand ← firstLabel labelOf typingOf args
      a.describe operand (firstOf typingOf args)) (labels labelOf typingOf args)
termination_by structural c => c

def labels (labelOf : FieldRef → m String) (typingOf : Clause → m Typing) :
    List Clause → m (List String)
  | [] => pure []
  | c :: rest => do
    let text ← label labelOf typingOf c
    let texts ← labels labelOf typingOf rest
    pure (text :: texts)
termination_by structural args => args

def firstLabel (labelOf : FieldRef → m String) (typingOf : Clause → m Typing) :
    List Clause → m (Option String)
  | [] => pure none
  | first :: _ => some <$> label labelOf typingOf first
termination_by structural args => args

end

def describe (labelOf : FieldRef → m String) (typingOf : Clause → m Typing) :
    Clause → m Description :=
  describeBy (label labelOf typingOf) typingOf

end Clause

end ResultSchema
