import ResultSchema.Clause.Basic
import ResultSchema.Column.Basic

/-! # Types of clauses

The type of a clause follows from its outermost operator and at most one operand. Field
references and named expressions are typed by the caller.
-/

namespace ResultSchema

structure Typing where
  baseType : BaseType := .wildcard
  effectiveType : Option BaseType := none
  coercionStrategy : Option String := none
  unit : Option TemporalUnit := none
  convertedTimezone : Option String := none
  deriving DecidableEq, Repr

namespace Typing

def ofType (t : BaseType) : Typing := { baseType := t }

def ofColumn (c : Column) : Typing where
  baseType := c.baseType
  effectiveType := c.effectiveType
  coercionStrategy := c.coercionStrategy
  unit := c.unit
  convertedTimezone := c.convertedTimezone

/-- The type without bucket and time zone. -/
def typeOnly (t : Typing) : Typing := { t with unit := none, convertedTimezone := none }

end Typing

/-- The column with the facts of a typing; a bucket is kept when the typing has none. -/
def Column.withTyping (c : Column) (t : Typing) : Column :=
  { c with
    baseType := t.baseType
    effectiveType := t.effectiveType
    coercionStrategy := t.coercionStrategy
    unit := t.unit.or c.unit
    convertedTimezone := t.convertedTimezone }

def Literal.type : Literal → BaseType
  | string _ => .text
  | int _ => .number
  | double _ => .number
  | bool _ => .boolean
  | null => .wildcard

namespace Operator

def textual : List String :=
  ["substring", "trim", "ltrim", "rtrim", "upper", "lower", "concat", "replace",
    "regex-match-first", "split-part", "text", "host", "domain", "subdomain", "path",
    "month-name", "quarter-name", "day-name"]

def numeric : List String :=
  ["+", "-", "*", "/", "abs", "ceil", "floor", "round", "sqrt", "power", "exp", "log",
    "integer", "float", "datetime-diff", "temporal-extract", "get-year", "get-quarter",
    "get-month", "get-week", "get-day", "get-day-of-week", "get-hour", "get-minute", "get-second"]

def logical : List String :=
  ["and", "or", "not", "=", "!=", "<", ">", "<=", ">=", "between", "in", "not-in",
    "is-null", "not-null", "is-empty", "not-empty", "starts-with", "ends-with", "contains",
    "does-not-contain", "inside", "time-interval"]

def resultType (op : String) : BaseType :=
  if op ∈ textual then .text
  else if op ∈ numeric then .float
  else if op ∈ logical then .boolean
  else .wildcard

def isInterval : Clause → Bool
  | .interval _ _ => true
  | _ => false

/-- Whether a call shifts a date: by one of the operators for that, or by adding an interval. -/
def shiftsDate (op : String) (args : List Clause) : Bool :=
  op ∈ ["datetime-add", "datetime-subtract", "relative-datetime"]
    || op == "+" && args.any isInterval

/-- The time zone to which the operands of a conversion name a move. -/
def zone? : List Clause → Option String
  | _ :: .literal (.string zone) :: _ => some zone
  | _ => none

end Operator

namespace Clause

variable {m : Type → Type} [Monad m]

/-- The typing of a clause, given those of field references, of named expressions and of the operand
that decides. -/
def typingOver (ofField : FieldRef → m Typing) (ofNamed : String → m Typing) (operand : m Typing) :
    Clause → m Typing
  | literal l => pure (.ofType l.type)
  | value _ hint => match hint.baseType with
    | some t => pure { baseType := t, effectiveType := hint.effectiveType }
    | none => operand
  | field f => ofField f
  | expression name options => match options.temporalUnit with
    | some _ => pure (.ofType .dateTime)
    | none => ofNamed name
  | aggregation _ => pure {}
  | interval _ _ => pure {}
  | case _ _ => operand
  | call op args =>
    if op = "coalesce" then Typing.typeOnly <$> operand
    else if op = "length" then pure (.ofType .bigInteger)
    else if op = "convert-timezone" then
      pure { baseType := .dateTime, convertedTimezone := Operator.zone? args }
    else if Operator.shiftsDate op args then do
      let shifted ← operand
      pure { baseType := .dateTime, convertedTimezone := shifted.convertedTimezone }
    else pure (.ofType (Operator.resultType op))

mutual

/-- The typing of a clause, given those of field references and of named expressions. -/
def typing (ofField : FieldRef → m Typing) (ofNamed : String → m Typing) (c : Clause) : m Typing :=
  typingOver ofField ofNamed (match c with
    | value inner _ => typing ofField ofNamed inner
    | case branches _ => branchTyping ofField ofNamed branches
    | call _ args => firstTyping ofField ofNamed args
    | _ => pure {}) c
termination_by structural c

/-- The typing of the first branch whose result is not null. -/
def branchTyping (ofField : FieldRef → m Typing) (ofNamed : String → m Typing) :
    List (Clause × Clause) → m Typing
  | [] => pure {}
  | (_, result) :: rest =>
    if result.isNull then branchTyping ofField ofNamed rest else typing ofField ofNamed result
termination_by structural branches => branches

def firstTyping (ofField : FieldRef → m Typing) (ofNamed : String → m Typing) :
    List Clause → m Typing
  | [] => pure {}
  | first :: _ => typing ofField ofNamed first
termination_by structural args => args

end

end Clause

end ResultSchema
