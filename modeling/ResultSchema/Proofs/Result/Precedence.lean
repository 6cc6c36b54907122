import ResultSchema.Proofs.Result.Covered

/-! # Precedence among three sources

A declared column is laid over a computed one, and the driver's column over both. Each fact is
then taken from the first source that has it, in an order of its own. Names and references are
not taken from elsewhere.
-/

namespace ResultSchema

namespace BaseType

theorem known?_append (candidates others : List (Option BaseType)) :
    known? (candidates ++ others) = (known? candidates).or (known? others) := by
  unfold known?
  rw [List.filterMap_append, List.find?_append]

theorem known?_append_best (candidates others : List (Option BaseType)) :
    known? (candidates ++ [some (best others)]) = known? (candidates ++ others) := by
  have hlast : known? [some (best others)] = known? others := by
    have hknown := filter_known? others
    unfold best
    cases h : known? others with
    | none => rfl
    | some t =>
      rw [h] at hknown
      rw [Option.getD_some, known?_cons, hknown]
      rfl
  rw [known?_append, known?_append, hlast]

end BaseType

namespace RawColumn

/-- The driver's extra entries other than a name, a text for the ident and a label. -/
def furtherExtra (raw : RawColumn) : OrderedMap Json :=
  raw.extra.filter fun (key, v) =>
    key ≠ "name" ∧ ¬ (key = "ident" ∧ v.asString?.isSome) ∧
      ¬ (key = "display_name" ∧ v.asString?.any (!·.isEmpty))

theorem isPlain_iff (key : String) (v : Json) : isPlain (key, v) ↔
    key ≠ "name" ∧ ¬ (key = "ident" ∧ v.asString?.isSome) ∧
      ¬ (key = "display_name" ∧ v.asString?.any (!·.isEmpty)) := by
  unfold isPlain
  split <;> simp_all [Json.asString?]

end RawColumn

namespace Column

/-- The label of a column, unless it is empty. -/
def label? (c : Column) : Option String :=
  if c.displayName.isEmpty then none else some c.displayName

/-- A column as a declared column and the driver's together make it: what each fact is taken
from, the first known one before the others. -/
def layered (c declared : Column) (raw : RawColumn) : Column :=
  { c with
    displayName := (raw.label?.or declared.label?).getD c.displayName
    baseType := BaseType.best [raw.baseType, some declared.baseType, some c.baseType]
    effectiveType := BaseType.known? [raw.effectiveType, raw.baseType,
      declared.effectiveType.or c.effectiveType, some declared.baseType, some c.baseType]
    id := raw.id.or (declared.id.or c.id)
    fkFieldId := declared.fkFieldId.or c.fkFieldId
    sourceAlias := declared.sourceAlias.or c.sourceAlias
    coercionStrategy := declared.coercionStrategy.or c.coercionStrategy
    binning := declared.binning.or c.binning
    convertedTimezone := declared.convertedTimezone.or c.convertedTimezone
    unit := (c.unit.filter (· ≠ .default)).or (declared.unit.or c.unit)
    ident :=
      if c.ownsIdent then c.ident.or (declared.ident.or raw.ident?)
      else raw.ident?.or (declared.ident.or c.ident)
    extra := ((c.extra.union declared.extra).union (.ofList raw.databaseEntry)).union
      raw.furtherExtra }

variable (c declared : Column) (raw : RawColumn)

theorem withDeclared_displayName :
    (c.withDeclared declared).displayName = declared.label?.getD c.displayName := by
  unfold withDeclared label?
  dsimp only
  split <;> rfl

theorem withDeclared_baseType : (c.withDeclared declared).baseType =
    BaseType.best [some declared.baseType, some c.baseType] := by
  rw [BaseType.best_pair]
  unfold withDeclared
  cases declared.baseType <;> rfl

theorem withDeclared_unit : (c.withDeclared declared).unit =
    (c.unit.filter (· ≠ .default)).or (declared.unit.or c.unit) := by
  unfold withDeclared
  cases c.unit with
  | none => rfl
  | some unit => cases unit <;> rfl

theorem displayName_layered : ((c.withDeclared declared).withExecuted raw).displayName =
    (raw.label?.or declared.label?).getD c.displayName := by
  show raw.label?.getD (c.withDeclared declared).displayName = _
  rw [withDeclared_displayName]
  cases raw.label? <;> rfl

theorem baseType_layered : ((c.withDeclared declared).withExecuted raw).baseType =
    BaseType.best [raw.baseType, some declared.baseType, some c.baseType] := by
  show BaseType.best [raw.baseType, some (c.withDeclared declared).baseType] = _
  rw [withDeclared_baseType]
  exact congrArg (Option.getD · _) (BaseType.known?_append_best [raw.baseType] _)

/-- The declared base type and the own one are asked before the driver's replaces them. -/
theorem effectiveType_layered : ((c.withDeclared declared).withExecuted raw).effectiveType =
    BaseType.known? [raw.effectiveType, raw.baseType, declared.effectiveType.or c.effectiveType,
      some declared.baseType, some c.baseType] := by
  show BaseType.known? [raw.effectiveType, raw.baseType, declared.effectiveType.or c.effectiveType,
    some (c.withDeclared declared).baseType] = _
  rw [withDeclared_baseType]
  exact BaseType.known?_append_best [_, _, _] _

theorem ident_layered : ((c.withDeclared declared).withExecuted raw).ident =
    if c.ownsIdent then c.ident.or (declared.ident.or raw.ident?)
    else raw.ident?.or (declared.ident.or c.ident) := by
  have howns : (c.withDeclared declared).ownsIdent = c.ownsIdent := rfl
  have hident : (c.withDeclared declared).ident = c.mergedIdent declared.ident := rfl
  show (c.withDeclared declared).mergedIdent raw.ident? = _
  rw [mergedIdent_eq, howns, hident, mergedIdent_eq]
  split
  · exact Option.or_assoc
  · rfl

theorem extra_layered : ((c.withDeclared declared).withExecuted raw).extra =
    ((c.extra.union declared.extra).union (.ofList raw.databaseEntry)).union raw.furtherExtra := by
  have hentry : (OrderedMap.ofList raw.databaseEntry).entries = raw.databaseEntry := by
    unfold RawColumn.databaseEntry
    cases raw.databaseType <;> rfl
  have hplain : raw.furtherExtra.entries = raw.extra.entries.filter RawColumn.isPlain := by
    refine List.filter_congr fun e _ => ?_
    rw [Bool.eq_iff_iff, RawColumn.isPlain_iff, decide_eq_true_iff]
  rw [OrderedMap.union, OrderedMap.union, hentry, hplain]
  rfl

/-- Of a column, a declared one and the driver's, each fact is that of the first source in turn
that has it. -/
theorem withExecuted_withDeclared :
    (c.withDeclared declared).withExecuted raw = c.layered declared raw := by
  unfold layered
  rw [← displayName_layered, ← baseType_layered, ← effectiveType_layered, ← ident_layered,
    ← extra_layered, ← withDeclared_unit]
  rfl

/-- A breakout keeps its own ident, any other column takes the driver's. -/
example : [some .breakout, some .fields, none].map (fun source =>
    let c : Column := { name := "total", displayName := "Total", source, ident := some "own" }
    ((c.withDeclared { c with ident := some "declared" }).withExecuted
      { name := "total", extra := .ofList [("ident", .str "reported")] }).ident) =
    [some "own", some "reported", some "reported"] := by decide

end Column

end ResultSchema
