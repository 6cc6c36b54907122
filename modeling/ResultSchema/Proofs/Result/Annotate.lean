import ResultSchema.Proofs.Outcome
import ResultSchema.Proofs.Resolve.Selected
import ResultSchema.Proofs.Stage.Chain
import ResultSchema.Result.Annotate

/-! # When annotation succeeds

The columns of a query are those of its chain of stages, within the limit of nesting, with
the driver's laid over them. Annotation adds the check of the rows.
-/

namespace ResultSchema.Annotator

variable {a : Annotator} {q : Query} {s : Stage} {results : ExecutionResult} {columns : List Column}

theorem checkDepth_eq_ok_iff : a.checkDepth s = .ok () ↔ s.depth ≤ a.config.maxStageDepth := by
  unfold checkDepth
  split <;> simp <;> omega

theorem reported_of_nil (h : results.columns = []) : a.reported results = .ok [] := by
  rw [reported, h]
  rfl

theorem sourceColumns_of_source {t : Stage} (h : s.sourceStage? = some t)
    (inner : Except SchemaError (List Column)) :
    a.sourceColumns results s (some inner) = (·.map Column.reselected) <$> inner := by
  rw [sourceColumns, Stage.sourceStage?_eq_some_iff.mp h]

theorem sourceColumns_of_end (h : s.sourceStage? = none) (hcolumns : results.columns = []) :
    a.sourceColumns results s none = .ok [] := by
  have hreported : a.reported results = .ok [] := reported_of_nil hcolumns
  unfold sourceColumns
  cases hs : s.source with
  | stage t => simp [Stage.sourceStage?_eq_some_iff.mpr hs] at h
  | native query => exact hreported
  | table id =>
    rw [hreported]
    rfl
  | none => rfl

variable {inner : Option (Except SchemaError (List Column))}

/-- A stage has what it selects, under what it declares, or else what it passes on. A model
changes idents, and names are made unique in the end. -/
theorem columnsOver_eq_ok_iff : a.columnsOver results s inner = .ok columns ↔
    ∃ selected own modelled, s.columns a.lexicon = .ok selected ∧
      (if s.selects then own = Merge.declared selected s.metadata
        else a.passedThrough results s inner = .ok own) ∧
      (if s.isModel then a.modelColumns s own = .ok modelled else modelled = own) ∧
      dedupe modelled = columns := by
  have hown {selected own : List Column} (hs : s.columns a.lexicon = .ok selected) :
      (if selected.isEmpty then a.passedThrough results s inner
        else pure (Merge.declared selected s.metadata)) = .ok own ↔
      if s.selects then own = Merge.declared selected s.metadata
        else a.passedThrough results s inner = .ok own := by
    rw [Stage.isEmpty_columns hs]
    cases s.selects <;> simp [pure, Except.pure, eq_comm]
  have hmodel {own modelled : List Column} :
      (if s.isModel then a.modelColumns s own else pure own) = .ok modelled ↔
      if s.isModel then a.modelColumns s own = .ok modelled else modelled = own := by
    cases s.isModel <;> simp [pure, Except.pure, eq_comm]
  simp only [columnsOver_eq, bind_eq_ok_iff]
  constructor
  · rintro ⟨selected, hs, modelled, ⟨own, ho, hm⟩, hcolumns⟩
    exact ⟨selected, own, modelled, hs, (hown hs).mp ho, hmodel.mp hm, Except.ok.inj hcolumns⟩
  · rintro ⟨selected, own, modelled, hs, ho, hm, rfl⟩
    exact ⟨selected, hs, modelled, ⟨own, (hown hs).mpr ho, hmodel.mpr hm⟩, rfl⟩

theorem columnInfo_structural_eq_ok_iff :
    a.columnInfo (.structural s) results = .ok columns ↔
      s.depth ≤ a.config.maxStageDepth ∧
        ∃ chain, a.chainColumns results s = .ok chain ∧
          dedupe (Merge.executed chain results.columns) = columns := by
  simp only [columnInfo, bind_eq_ok_iff, pure, Except.pure, Except.ok.injEq]
  exact ⟨fun ⟨_, hd, h⟩ => ⟨checkDepth_eq_ok_iff.mp hd, h⟩,
    fun ⟨hd, h⟩ => ⟨(), checkDepth_eq_ok_iff.mpr hd, h⟩⟩

theorem stageColumns_eq_ok_iff :
    a.stageColumns s = .ok columns ↔
      s.depth ≤ a.config.maxStageDepth ∧ s.columns a.lexicon = .ok columns := by
  simp only [stageColumns, bind_eq_ok_iff]
  exact ⟨fun ⟨_, hd, h⟩ => ⟨checkDepth_eq_ok_iff.mp hd, h⟩,
    fun ⟨hd, h⟩ => ⟨(), checkDepth_eq_ok_iff.mpr hd, h⟩⟩

theorem annotate_eq_ok_iff {r : AnnotatedResult} :
    a.annotate q results = .ok r ↔
      a.columnInfo q results = .ok r.columns ∧ checkWidth r.columns results = .ok () ∧
        r.rows = results.rows ∧ r.extra = results.extra := by
  simp only [annotate, bind_eq_ok_iff, pure, Except.pure, Except.ok.injEq]
  constructor
  · rintro ⟨columns, hc, _, hw, rfl⟩
    exact ⟨hc, hw, rfl, rfl⟩
  · rintro ⟨hc, hw, hrows, hextra⟩
    refine ⟨r.columns, hc, (), hw, ?_⟩
    cases r
    simp_all

end ResultSchema.Annotator
