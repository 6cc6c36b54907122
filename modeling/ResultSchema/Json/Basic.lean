import ResultSchema.Decimal.Double
import ResultSchema.OrderedMap

/-! # JSON values

Objects keep their entries in order, and integers are told apart from doubles. Reading
functions answer `none` when a value has another shape.
-/

namespace ResultSchema

inductive Json
  | null
  | bool (b : Bool)
  | int (n : Int)
  | double (x : Double)
  | str (s : String)
  | arr (items : List Json)
  | obj (entries : List (String × Json))
  deriving Inhabited

namespace Json

mutual

def decEq : (a b : Json) → Decidable (a = b)
  | .null, b => match b with
    | .null => isTrue rfl
    | .bool _ | .int _ | .double _ | .str _ | .arr _ | .obj _ => isFalse nofun
  | .bool x, b => match b with
    | .bool y => if h : x = y then isTrue (by rw [h]) else isFalse (by simp [h])
    | .null | .int _ | .double _ | .str _ | .arr _ | .obj _ => isFalse nofun
  | .int x, b => match b with
    | .int y => if h : x = y then isTrue (by rw [h]) else isFalse (by simp [h])
    | .null | .bool _ | .double _ | .str _ | .arr _ | .obj _ => isFalse nofun
  | .double x, b => match b with
    | .double y => if h : x = y then isTrue (by rw [h]) else isFalse (by simp [h])
    | .null | .bool _ | .int _ | .str _ | .arr _ | .obj _ => isFalse nofun
  | .str x, b => match b with
    | .str y => if h : x = y then isTrue (by rw [h]) else isFalse (by simp [h])
    | .null | .bool _ | .int _ | .double _ | .arr _ | .obj _ => isFalse nofun
  | .arr xs, b => match b with
    | .arr ys => match decEqItems xs ys with
      | isTrue h => isTrue (by rw [h])
      | isFalse h => isFalse (by simp [h])
    | .null | .bool _ | .int _ | .double _ | .str _ | .obj _ => isFalse nofun
  | .obj xs, b => match b with
    | .obj ys => match decEqEntries xs ys with
      | isTrue h => isTrue (by rw [h])
      | isFalse h => isFalse (by simp [h])
    | .null | .bool _ | .int _ | .double _ | .str _ | .arr _ => isFalse nofun
termination_by structural a => a

def decEqItems : (xs ys : List Json) → Decidable (xs = ys)
  | [], [] => isTrue rfl
  | [], _ :: _ | _ :: _, [] => isFalse nofun
  | x :: xs, y :: ys => match decEq x y, decEqItems xs ys with
    | isTrue h, isTrue k => isTrue (by rw [h, k])
    | isFalse h, _ => isFalse (by simp [h])
    | _, isFalse k => isFalse (by simp [k])
termination_by structural xs => xs

def decEqEntries : (xs ys : List (String × Json)) → Decidable (xs = ys)
  | [], [] => isTrue rfl
  | [], _ :: _ | _ :: _, [] => isFalse nofun
  | x :: xs, y :: ys => match decEqEntry x y, decEqEntries xs ys with
    | isTrue h, isTrue k => isTrue (by rw [h, k])
    | isFalse h, _ => isFalse (by simp [h])
    | _, isFalse k => isFalse (by simp [k])
termination_by structural xs => xs

def decEqEntry : (x y : String × Json) → Decidable (x = y)
  | (k, v), (l, w) => if h : k = l then
      match decEq v w with
      | isTrue e => isTrue (by rw [h, e])
      | isFalse e => isFalse (by simp [e])
    else isFalse (by simp [h])
termination_by structural x => x

end

instance : DecidableEq Json := decEq

def get? : Json → String → Option Json
  | .obj entries, key => entries.lookup key
  | _, _ => none

def asString? : Json → Option String
  | .str s => some s
  | _ => none

def asBool? : Json → Option Bool
  | .bool b => some b
  | _ => none

def asArray? : Json → Option (List Json)
  | .arr items => some items
  | _ => none

def asObject? : Json → Option (List (String × Json))
  | .obj entries => some entries
  | _ => none

/-- The entries of a record with those keys, which may also be given as the array of its first
values in that order. -/
def asRecord? (keys : List String) : Json → Option (List (String × Json))
  | .obj entries => some entries
  | .arr items => if items.length ≤ keys.length then some (keys.zip items) else none
  | _ => none

/-- The name of an alternative, which may also be given as the one key of an object over
null. -/
def asTag? : Json → Option String
  | .str name => some name
  | .obj [(name, .null)] => some name
  | _ => none

def asInt64? : Json → Option Int64
  | .int n => if Int64.minValue.toInt ≤ n ∧ n ≤ Int64.maxValue.toInt then some (Int64.ofInt n) else none
  | _ => none

def asNat? : Json → Option Nat
  | .int (.ofNat n) => some n
  | _ => none

/-- A natural number of 32 bits. -/
def asUInt32? (v : Json) : Option UInt32 := do
  let n ← v.asNat?
  if n < UInt32.size then some (UInt32.ofNat n) else none

/-- Any number, an integer taken to the nearest double. -/
def asDouble? : Json → Option Double
  | .int n => some (.ofInt n)
  | .double x => some x
  | _ => none

def ofInt64 (i : Int64) : Json := .int i.toInt

def ofNat (n : Nat) : Json := .int n

/-- A double is written as a number when it is finite, else as null. -/
def ofDouble (x : Double) : Json := if x.isFinite then .double x else .null

theorem asInt64?_ofInt64 (i : Int64) : (ofInt64 i).asInt64? = some i := by
  have h := Int64.minValue_le_toInt i
  have h' := Int64.toInt_le i
  simp only [ofInt64, asInt64?, Int64.ofInt_toInt]
  exact if_pos ⟨h, h'⟩

theorem asNat?_ofNat (n : Nat) : (ofNat n).asNat? = some n := rfl

mutual

/-- The value with every repeated key of an object reduced to its last value. -/
def lastWins : Json → Json
  | .arr items => .arr (lastWinsItems items)
  | .obj entries => .obj (OrderedMap.ofList (lastWinsEntries entries)).entries
  | v => v
termination_by structural v => v

def lastWinsItems : List Json → List Json
  | [] => []
  | v :: rest => lastWins v :: lastWinsItems rest
termination_by structural items => items

def lastWinsEntries : List (String × Json) → List (String × Json)
  | [] => []
  | e :: rest => lastWinsEntry e :: lastWinsEntries rest
termination_by structural entries => entries

def lastWinsEntry : String × Json → String × Json
  | (key, v) => (key, lastWins v)
termination_by structural e => e

end

def optional {α : Type} (v : Json) (read : Json → Option α) : Option (Option α) :=
  match v with
  | .null => some none
  | v => (read v).map some

end Json

end ResultSchema
