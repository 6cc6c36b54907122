import ResultSchema.Proofs.Resolve.Failures
import ResultSchema.Proofs.Result.Width
import ResultSchema.Proofs.Stage.Chain
import ResultSchema.Proofs.Stage.Limit

/-! # Failures of annotation

Columns are passed along a chain of stages with few kinds of errors: unresolved references,
rows of another width, and outside production what the models on the way lack. The depth of
nesting is checked before anything else.
-/

namespace ResultSchema

/-- The stages that the columns of a query pass on their way out. -/
def Query.route : Query → List Stage
  | structural s => s.route
  | native _ => []

theorem Native.column_failsOnly (lexicon : Lexicon) (raw : RawColumn) (sample : Option Json)
    (unique : String) :
    FailsOnly SchemaError.IsUnresolved (Native.column lexicon raw sample unique) := by
  unfold Native.column
  cases raw.id with
  | none => exact .ok _
  | some id => exact (lexicon.column_failsOnly id).bind fun _ _ => .ok _

namespace Annotator

/-- The errors that can come up on the way through some stages. -/
inductive Failure (a : Annotator) (results : ExecutionResult) (stages : List Stage) :
    SchemaError → Prop
  | unresolved (u : Unresolved) : Failure a results stages (.unresolved u)
  | mismatch (w : WidthMismatch) : results.rows ≠ [] → Failure a results stages (.mismatch w)
  | inconsistent (i : Inconsistency) (s : Stage) : a.config.production = false → s ∈ stages →
      s.isModel → Failure a results stages (.inconsistent i)

variable {a : Annotator} {q : Query} {s t : Stage} {results : ExecutionResult}
variable {stages stages' : List Stage} {columns : List Column}

theorem Failure.mono {e : SchemaError} (h : a.Failure results stages e)
    (hsub : stages ⊆ stages') : a.Failure results stages' e := by
  cases h with
  | unresolved u => exact .unresolved u
  | mismatch w hrows => exact .mismatch w hrows
  | inconsistent i s hdev hs hmodel => exact .inconsistent i s hdev (hsub hs) hmodel

theorem Failure.of_isUnresolved {e : SchemaError} (h : e.IsUnresolved) :
    a.Failure results stages e := by
  obtain ⟨u, rfl⟩ := h
  exact .unresolved u

theorem widthCheck_failsOnly {n : Nat} {check : Except SchemaError Unit}
    (hfit : ¬ results.Misfits n → check = .ok ())
    (hmisfit : results.Misfits n → ∃ w, check = .error (.mismatch w)) :
    FailsOnly (a.Failure results stages) check := by
  by_cases hrow : results.Misfits n
  · obtain ⟨w, hw⟩ := hmisfit hrow
    rw [hw]
    exact .error (.mismatch w hrow.rows_ne_nil)
  · rw [hfit hrow]
    exact .ok ()

theorem nativeColumns_failsOnly :
    FailsOnly (a.Failure results stages) (Native.columns a.lexicon results) := by
  have hcheck : FailsOnly (a.Failure results stages) (Native.checkWidth results) :=
    widthCheck_failsOnly Native.checkWidth_eq_ok_iff.mpr Native.checkWidth_of_misfits
  exact hcheck.bind fun _ _ => .mapM fun _ _ =>
    (Native.column_failsOnly _ _ _ _).mono fun _ => Failure.of_isUnresolved

theorem reported_failsOnly : FailsOnly (a.Failure results stages) (a.reported results) := by
  unfold reported
  split
  · exact .ok []
  · exact nativeColumns_failsOnly

theorem missing_failsOnly {α : Type} (hs : s ∈ stages) (hmodel : s.isModel) (i : Inconsistency)
    (x : α) : FailsOnly (a.Failure results stages)
      (if a.config.production then pure x else throw (.inconsistent i)) := by
  cases hmode : a.config.production with
  | true => exact .ok x
  | false => exact .error (.inconsistent i s hmode hs hmodel)

theorem modelColumn_failsOnly (hs : s ∈ stages) (hmodel : s.isModel) (entityId : String)
    (c : Column) : FailsOnly (a.Failure results stages) (a.modelColumn entityId c) := by
  unfold modelColumn
  cases c.ident with
  | some ident => exact .ok _
  | none => exact missing_failsOnly hs hmodel _ c

theorem modelColumns_failsOnly (hs : s ∈ stages) (hmodel : s.isModel) :
    FailsOnly (a.Failure results stages) (a.modelColumns s columns) := by
  unfold modelColumns
  cases s.card.bind (·.entityId) with
  | some entityId => exact .mapM fun c _ => modelColumn_failsOnly hs hmodel entityId c
  | none => exact missing_failsOnly hs hmodel _ columns

theorem sourceColumns_failsOnly
    (hinner : ∀ t, s.sourceStage? = some t →
      FailsOnly (a.Failure results stages) (a.chainColumns results t)) :
    FailsOnly (a.Failure results stages)
      (a.sourceColumns results s (s.sourceStage?.map (a.chainColumns results))) := by
  cases ht : s.sourceStage? with
  | some t =>
    rw [Option.map_some, sourceColumns_of_source ht]
    exact (hinner t ht).map _
  | none =>
    unfold sourceColumns
    split
    · exact .ok []
    · exact reported_failsOnly
    · exact reported_failsOnly.map _
    · exact .ok []

theorem chainColumns_failsOnly (s : Stage) :
    FailsOnly (a.Failure results s.route) (a.chainColumns results s) := by
  induction s using Stage.nested_induction with
  | step s hsource _ =>
    rw [chainColumns_eq, columnsOver_eq]
    refine .bind ((s.columns_failsOnly a.lexicon).mono fun _ => Failure.of_isUnresolved)
      fun selected hs => .bind (.bind ?_ fun columns _ => ?_) fun _ _ => .ok _
    · split
      · rename_i hempty
        have hselects : s.selects = false := by
          simpa [Stage.isEmpty_columns hs] using hempty
        refine .bind (sourceColumns_failsOnly fun t ht => ?_) fun _ _ => .ok _
        have hsub : t.route ⊆ s.route := by
          rw [Stage.route_of_source hselects ht]
          exact List.subset_cons_self ..
        exact (hsource t ht).mono fun _ h => h.mono hsub
      · exact .ok _
    · split
      · rename_i hmodel
        exact modelColumns_failsOnly s.mem_route hmodel
      · exact .ok _

theorem columnInfo_of_tooDeep (h : a.config.maxStageDepth < q.depth) :
    a.columnInfo q results = .error (.nestingTooDeep q.depth a.config.maxStageDepth) := by
  cases q with
  | native query => exact absurd h (Nat.not_lt_zero _)
  | structural s =>
    have hdepth : a.checkDepth s = .error (.nestingTooDeep s.depth a.config.maxStageDepth) :=
      if_pos h
    rw [columnInfo, hdepth, error_bind]
    rfl

theorem columnInfo_failsOnly (h : q.depth ≤ a.config.maxStageDepth) :
    FailsOnly (a.Failure results q.route) (a.columnInfo q results) := by
  cases q with
  | native query => exact nativeColumns_failsOnly
  | structural s =>
    rw [columnInfo, checkDepth_eq_ok_iff.mpr h]
    exact .bind (chainColumns_failsOnly s) fun _ _ => .ok _

theorem annotate_of_tooDeep (h : a.config.maxStageDepth < q.depth) :
    a.annotate q results = .error (.nestingTooDeep q.depth a.config.maxStageDepth) := by
  rw [annotate, columnInfo_of_tooDeep h, error_bind]

theorem annotate_failsOnly (h : q.depth ≤ a.config.maxStageDepth) :
    FailsOnly (a.Failure results q.route) (a.annotate q results) := by
  refine .bind (columnInfo_failsOnly h) fun columns _ => .bind ?_ fun _ _ => .ok _
  exact widthCheck_failsOnly checkWidth_eq_ok_iff.mpr checkWidth_of_misfits

theorem annotate_nestingTooDeep_iff {depth max : Nat} :
    a.annotate q results = .error (.nestingTooDeep depth max) ↔
      a.config.maxStageDepth < q.depth ∧ depth = q.depth ∧ max = a.config.maxStageDepth := by
  constructor
  · intro h
    by_cases hd : a.config.maxStageDepth < q.depth
    · rw [annotate_of_tooDeep hd] at h
      cases h
      exact ⟨hd, rfl, rfl⟩
    · exact nomatch annotate_failsOnly (Nat.not_lt.mp hd) _ h
  · rintro ⟨hd, rfl, rfl⟩
    exact annotate_of_tooDeep hd

theorem failure_of_annotate {e : SchemaError} (h : a.annotate q results = .error e)
    (hdepth : ∀ depth max, e ≠ .nestingTooDeep depth max) : a.Failure results q.route e := by
  by_cases hd : a.config.maxStageDepth < q.depth
  · rw [annotate_of_tooDeep hd] at h
    cases h
    exact absurd rfl (hdepth _ _)
  · exact annotate_failsOnly (Nat.not_lt.mp hd) e h

/-- Resolution fails for unresolved references only, in whatever stage and with whatever memo.
Annotation fails for the depth of nesting exactly when a query is too deep; it never reads or
runs a query; it misses widths only in rows, and facts of models only outside production and
where the columns pass a model. -/
theorem annotate_error_kinds (a : Annotator) :
    (∀ s : Stage, Survey.Each (FailsOnly SchemaError.IsUnresolved)
      ⟨s.scope a.lexicon, s.visible a.lexicon⟩) ∧
    (∀ (root s : Stage) (path : StagePath), root.at? path = some s →
      (Remembering.survey a.lexicon s path).Each fun x => ∀ memo,
        FailsOnly SchemaError.IsUnresolved (Remembering.run x memo).1) ∧
    ∀ q results,
      (∀ depth max, a.annotate q results = .error (.nestingTooDeep depth max) ↔
        ∃ s, q = .structural s ∧ a.config.maxStageDepth < s.depth ∧ depth = s.depth ∧
          max = a.config.maxStageDepth) ∧
      (∀ e, a.annotate q results ≠ .error (.unreadable e)) ∧
      (∀ kind, a.annotate q results ≠ .error (.unknownStageKind kind)) ∧
      (∀ text, a.annotate q results ≠ .error (.execution text)) ∧
      (∀ w, a.annotate q results = .error (.mismatch w) → results.rows ≠ []) ∧
      ∀ i, a.annotate q results = .error (.inconsistent i) →
        a.config.production = false ∧ ∃ s ∈ q.route, s.isModel := by
  refine ⟨fun s => s.survey_failsOnly a.lexicon,
    fun _ _ _ hs => Remembering.survey_failsOnly a.lexicon hs, fun q results => ?_⟩
  have hfailure {e : SchemaError} (h : a.annotate q results = .error e) := failure_of_annotate h
  refine ⟨fun depth max => ?_, fun e h => ?_, fun kind h => ?_, fun text h => ?_, fun w h => ?_,
    fun i h => ?_⟩
  · rw [annotate_nestingTooDeep_iff]
    cases q with
    | native query => simp [Query.depth, Query.stage?]
    | structural s => simp [Query.depth, Query.stage?]
  · exact nomatch hfailure h nofun
  · exact nomatch hfailure h nofun
  · exact nomatch hfailure h nofun
  · cases hfailure h nofun with
    | mismatch w hrows => exact hrows
  · cases hfailure h nofun with
    | inconsistent i s hmode hs hmodel => exact ⟨hmode, s, hs, hmodel⟩

end Annotator

end ResultSchema
