import ResultSchema.Proofs.Names.Unique
import ResultSchema.Proofs.Outcome
import ResultSchema.Proofs.Resolve.Survey

/-! # Selected columns

A stage that selects its columns has one for each breakout, aggregation and listed field.
The joins that it can name are those of the stages on its chain.
-/

namespace ResultSchema

namespace Scope

variable {scope : Scope (Except SchemaError)} {columns : List Column}

theorem column_cases {clause : Clause} {c : Column} (h : scope.column clause = .ok c) :
    (∃ f, clause = .field f ∧ scope.field f = .ok c) ∨
      (∃ name options e t, clause = .expression name options ∧
        scope.stage.expressions.get? name = some e ∧ scope.typing e.clause = .ok t ∧
          c = .ofExpression name options e t) ∨
      ∃ index a, clause = .aggregation index ∧ scope.stage.aggregations[index]? = some a ∧
        scope.aggregation index a = .ok c := by
  simp only [Scope.column] at h
  cases clause with
  | field f => exact .inl ⟨f, rfl, h⟩
  | expression name options =>
    simp only [Stage.columnBy, Stage.expressionBy] at h
    cases he : scope.stage.expressions.get? name with
    | none =>
      rw [he] at h
      cases h
    | some e =>
      rw [he] at h
      obtain ⟨t, ht, h⟩ := bind_eq_ok_iff.mp h
      cases h
      exact .inr (.inl ⟨name, options, e, t, rfl, he, ht, rfl⟩)
  | aggregation index =>
    simp only [Stage.columnBy] at h
    cases ha : scope.stage.aggregations[index]? with
    | none =>
      rw [ha] at h
      cases h
    | some a =>
      rw [ha] at h
      exact .inr (.inr ⟨index, a, rfl, ha, h⟩)
  | _ => cases h

theorem columns_eq_ok_iff : scope.columns = .ok columns ↔
    ∃ breakouts aggregations fields,
      scope.stage.breakouts.mapM scope.breakout = .ok breakouts ∧
      (scope.stage.aggregations.zipIdx.mapM fun (a, i) => scope.aggregation i a) =
        .ok aggregations ∧
      scope.stage.fields.mapM scope.listed = .ok fields ∧
      dedupe (breakouts ++ aggregations ++ fields) = columns := by
  simp only [Scope.columns, Stage.columnsBy, bind_eq_ok_iff, pure, Except.pure, Except.ok.injEq]
  constructor
  · rintro ⟨breakouts, hb, aggregations, ha, fields, hf, h⟩
    exact ⟨breakouts, aggregations, fields, hb, ha, hf, h⟩
  · rintro ⟨breakouts, aggregations, fields, hb, ha, hf, h⟩
    exact ⟨breakouts, hb, aggregations, ha, fields, hf, h⟩

end Scope

namespace Stage

variable {lexicon : Lexicon} {s : Stage} {columns : List Column}

theorem length_columns (h : s.columns lexicon = .ok columns) :
    columns.length = s.breakouts.length + s.aggregations.length + s.fields.length := by
  obtain ⟨breakouts, aggregations, fields, hb, ha, hf, rfl⟩ := Scope.columns_eq_ok_iff.mp h
  rw [scope_stage] at hb ha hf
  have hb := length_of_mapM_eq_ok hb
  have ha := length_of_mapM_eq_ok ha
  have hf := length_of_mapM_eq_ok hf
  rw [List.length_zipIdx] at ha
  simp only [length_dedupe, List.length_append]
  omega

theorem names_columns_nodup (h : s.columns lexicon = .ok columns) :
    (columns.map (·.name)).Nodup := by
  obtain ⟨breakouts, aggregations, fields, -, -, -, rfl⟩ := Scope.columns_eq_ok_iff.mp h
  exact names_dedupe_nodup _

theorem isEmpty_columns (h : s.columns lexicon = .ok columns) :
    columns.isEmpty = !s.selects := by
  have hlen := length_columns h
  rw [Bool.eq_iff_iff]
  simp only [selects, List.isEmpty_iff_length_eq_zero, Bool.not_not, Bool.and_eq_true]
  omega

theorem visible_of_selects (hselects : s.selects) : s.visible lexicon = s.columns lexicon := by
  rw [visible_eq]
  show s.columns lexicon >>= _ = _
  cases hs : s.columns lexicon with
  | error e => rfl
  | ok selected =>
    rw [ok_bind, isEmpty_columns hs, hselects]
    rfl

/-- The joins that a stage can name: its own, then those of its source stage and so on. -/
def joinsInSight : Stage → List (Join Stage) := foldChain fun s inner => s.joins ++ inner.getD []

theorem joinsInSight_eq (s : Stage) : s.joinsInSight =
    s.joins ++ (s.sourceStage?.map joinsInSight).getD [] := foldChain_eq _ s

theorem scope_joins_eq_map (lexicon : Lexicon) (s : Stage) :
    (s.scope lexicon).joins = s.joinsInSight.map fun j => ⟨j, j.stage.visible lexicon⟩ := by
  induction s using nested_induction with
  | step s hsource _ =>
    rw [scope_joins, joinsInSight_eq, List.map_append]
    congr 1
    cases ht : s.sourceStage? with
    | none => rfl
    | some t => exact hsource t ht

/-- A scope is made of what is known outside the query, the stage, and what the stages around it
expose. -/
theorem scope_eq (lexicon : Lexicon) (s : Stage) : s.scope lexicon =
    ⟨lexicon, s, s.sourceStage?.map (·.visible lexicon),
      s.joinsInSight.map fun j => ⟨j, j.stage.visible lexicon⟩⟩ := by
  have heta : s.scope lexicon = ⟨(s.scope lexicon).lexicon, (s.scope lexicon).stage,
    (s.scope lexicon).source, (s.scope lexicon).joins⟩ := rfl
  rw [heta, scope_lexicon, scope_stage, scope_source, scope_joins_eq_map]

/-- The join that an alias means in a stage. -/
def join? (s : Stage) (joinAlias : String) : Option (Join Stage) :=
  s.joinsInSight.find? (·.joinAlias == joinAlias)

theorem joinAlias_of_join? {joinAlias : String} {j : Join Stage}
    (h : s.join? joinAlias = some j) : j.joinAlias = joinAlias := by
  have hp := List.find?_some h
  exact eq_of_beq hp

theorem scope_join_eq_ok_iff {joinAlias : String} {j : ScopedJoin (Except SchemaError)} :
    (s.scope lexicon).join joinAlias = .ok j ↔
      ∃ join, s.join? joinAlias = some join ∧ j = ⟨join, join.stage.visible lexicon⟩ := by
  unfold Scope.join join?
  rw [scope_joins_eq_map, List.find?_map]
  simp only [Function.comp_def]
  cases s.joinsInSight.find? (·.joinAlias == joinAlias) with
  | none => simp
  | some join => simp [eq_comm]

theorem join?_of_scope_join {joinAlias : String} {j : ScopedJoin (Except SchemaError)}
    (h : (s.scope lexicon).join joinAlias = .ok j) : s.join? joinAlias = some j.join := by
  obtain ⟨join, hjoin, rfl⟩ := scope_join_eq_ok_iff.mp h
  exact hjoin

end Stage

end ResultSchema
