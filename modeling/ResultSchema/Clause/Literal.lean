import ResultSchema.Json.Text

/-! # Literals

Scalar values inside clauses. Integers beyond 64 bits with sign are doubles.
-/

namespace ResultSchema

inductive Literal
  | string (s : String)
  | int (n : Int64)
  | double (x : Double)
  | bool (b : Bool)
  | null
  deriving DecidableEq, Repr

namespace Literal

/-- The literal of a scalar value; arrays and objects are none. -/
def ofJson? : Json → Option Literal
  | .null => some null
  | .bool b => some (bool b)
  | .str s => some (string s)
  | .double x => some (double x)
  | .int n => match (Json.int n).asInt64? with
    | some i => some (int i)
    | none => some (double (.ofInt n))
  | .arr _ | .obj _ => none

def toJson : Literal → Json
  | string s => .str s
  | int n => .ofInt64 n
  | double x => .ofDouble x
  | bool b => .bool b
  | null => .null

def display : Literal → String
  | string s => "\"" ++ s ++ "\""
  | int n => toString n
  | double x => Layout.plain.text x
  | bool b => toString b
  | null => "null"

def tagged (l : Literal) : String :=
  match l with
  | string _ => "String(" ++ l.display ++ ")"
  | int _ => "Int(" ++ l.display ++ ")"
  | double _ => "Float(" ++ l.display ++ ")"
  | bool _ => "Bool(" ++ l.display ++ ")"
  | null => "Null"

end Literal

end ResultSchema
