import ResultSchema.Clause.Basic

/-! # Reading clauses

A scalar is a literal; an array starts with the name of its operator. The arguments of
calls are clauses in turn.
-/

namespace ResultSchema.Clause

/-- The declared types of a value; either spelling of a key is read, the first one found. -/
def readHint : Json → TypeHint
  | v@(.obj _) =>
    let typeAt (key other : String) : Option BaseType :=
      ((v.get? key).or (v.get? other)).bind BaseType.ofJson?
    { baseType := typeAt "base_type" "base-type"
      effectiveType := typeAt "effective_type" "effective-type" }
  | _ => {}

mutual

def read (v : Json) (loc : Location) : Reading Clause :=
  match v with
  | .arr (.str op :: args) =>
    match op with
    | "field" => field <$> FieldRef.readArgs args loc v
    | "expression" => do
      let name ← Reading.require (args[0]?.bind Json.asString?) .expressionWithoutName loc v
      let options ← match args[1]? with
        | some o => FieldOptions.read o (loc.index 2)
        | none => pure {}
      pure (expression name options)
    | "aggregation" => do
      let index ← Reading.require (args[0]?.bind Json.asNat?) .aggregationWithoutIndex loc v
      pure (aggregation index)
    | "interval" =>
      match args[0]?.bind Json.asInt64?, args[1]?.bind TemporalUnit.ofJson? with
      | some amount, some unit => pure (interval amount unit)
      | _, _ => throw ⟨.intervalParts, loc, v⟩
    | "value" =>
      match args with
      | [] => throw ⟨.valueMissing, loc, v⟩
      | inner :: rest => do
        let inner ← read inner (loc.index 1)
        pure (value inner ((rest.head?.map readHint).getD {}))
    | "case" => readCase args loc v
    | "if" => readCase args loc v
    | _ => call op <$> readArgs 1 args loc
  | .arr _ => throw ⟨.clauseWithoutOperator, loc, v⟩
  | v => match Literal.ofJson? v with
    | some l => pure (literal l)
    | none => throw ⟨.notClause, loc, v⟩
termination_by structural v

def readArgs (i : Nat) (args : List Json) (loc : Location) : Reading (List Clause) :=
  match args with
  | [] => pure []
  | v :: rest => do
    let c ← read v (loc.index i)
    let cs ← readArgs (i + 1) rest loc
    pure (c :: cs)
termination_by structural args

def readCase (args : List Json) (loc : Location) (whole : Json) : Reading Clause :=
  match args with
  | .arr pairs :: rest => do
    let branches ← readBranches 0 pairs (loc.index 1)
    let fallback ← readFallback rest (loc.index 2)
    pure (case branches fallback)
  | _ => throw ⟨.casePairsMissing, loc, whole⟩
termination_by structural args

def readBranches (i : Nat) (pairs : List Json) (loc : Location) : Reading (List (Clause × Clause)) :=
  match pairs with
  | [] => pure []
  | pair :: rest => do
    let branch ← readBranch pair (loc.index i)
    let branches ← readBranches (i + 1) rest loc
    pure (branch :: branches)
termination_by structural pairs

def readBranch (pair : Json) (loc : Location) : Reading (Clause × Clause) :=
  match pair with
  | .arr [condition, result] => do
    let condition ← read condition (loc.index 0)
    let result ← read result (loc.index 1)
    pure (condition, result)
  | _ => throw ⟨.caseBranchShape, loc, pair⟩
termination_by structural pair

/-- The clause under `default` in the options after the branches. -/
def readFallback (args : List Json) (loc : Location) : Reading (Option Clause) :=
  match args with
  | .obj entries :: _ => readDefault entries loc
  | _ => pure none
termination_by structural args

def readDefault (entries : List (String × Json)) (loc : Location) : Reading (Option Clause) :=
  match entries with
  | [] => pure none
  | (key, v) :: rest =>
    if key = "default" then some <$> read v (loc.key "default") else readDefault rest loc
termination_by structural entries

end

end ResultSchema.Clause
