import ResultSchema.Proofs.Result.Annotate
import ResultSchema.Proofs.Result.Native
import ResultSchema.Proofs.Result.Shape

/-! # Widths of rows

Rows are checked against the driver's columns of a native source and against the columns of
the result. Together the two checks come to one rule: the first row is as wide as the
columns that the query has without any rows.
-/

namespace ResultSchema

namespace ExecutionResult

variable {results : ExecutionResult} {n : Nat}

def withoutRows (results : ExecutionResult) : ExecutionResult := { results with rows := [] }

/-- There is a first row, and its width is another one. -/
def Misfits (results : ExecutionResult) (n : Nat) : Prop :=
  ∃ row rest, results.rows = row :: rest ∧ row.length ≠ n

theorem misfits_iff : results.Misfits n ↔ ∃ width, results.rowWidth? = some width ∧ width ≠ n := by
  unfold Misfits rowWidth?
  cases results.rows with
  | nil => simp
  | cons row rest => simp

theorem Misfits.rows_ne_nil (h : results.Misfits n) : results.rows ≠ [] := by
  obtain ⟨row, rest, hrows, -⟩ := h
  exact hrows ▸ List.cons_ne_nil row rest

end ExecutionResult

namespace Native

variable {lexicon : Lexicon} {results : ExecutionResult}

theorem checkWidth_eq_ok_iff :
    checkWidth results = .ok () ↔ ¬ results.Misfits results.columns.length := by
  rw [ExecutionResult.misfits_iff]
  unfold checkWidth
  cases results.rowWidth? with
  | none => simp
  | some width => by_cases h : width = results.columns.length <;> simp [h]

theorem checkWidth_of_misfits (h : results.Misfits results.columns.length) :
    ∃ w, checkWidth results = .error (.mismatch w) := by
  obtain ⟨width, hw, hne⟩ := ExecutionResult.misfits_iff.mp h
  unfold checkWidth
  rw [hw]
  exact ⟨_, if_neg hne⟩

theorem column_sameShape (raw : RawColumn) (sample other : Option Json) (unique : String) :
    Agree Column.SameShape (column lexicon raw sample unique)
      (column lexicon raw other unique) := by
  unfold column
  cases raw.id with
  | none => exact .ok ⟨rfl, rfl, rfl⟩
  | some id => exact .refl Column.SameShape.refl _

theorem columns_sameShape (h : ¬ results.Misfits results.columns.length) :
    Agree (List.Forall₂ Column.SameShape) (columns lexicon results)
      (columns lexicon results.withoutRows) := by
  unfold columns
  rw [checkWidth_eq_ok_iff.mpr h]
  exact Comparison.mapM (R := outcomes) (List.forall₂_same.mpr fun x _ => column_sameShape _ _ _ _)

end Native

/-- Columns computed with the rows beside those computed without them. Either the rows made
no difference, or they did not fit the driver's columns, of which there are as many as there
are columns without them. -/
inductive WithRows (results : ExecutionResult) (x y : Except SchemaError (List Column)) : Prop
  | alike : Agree (List.Forall₂ Column.SameShape) x y → WithRows results x y
  | misfit : (∃ w, x = .error (.mismatch w)) → results.Misfits results.columns.length →
      results.columns ≠ [] →
      (∀ columns, y = .ok columns → columns.length = results.columns.length) →
      WithRows results x y

namespace WithRows

variable {results : ExecutionResult} {x y : Except SchemaError (List Column)}

theorem refl (x : Except SchemaError (List Column)) : WithRows results x x :=
  .alike (.refl Column.SameShape.refl_list x)

/-- A step of the pipeline keeps the two in this relation. -/
theorem step (h : WithRows results x y) {f : List Column → Except SchemaError (List Column)}
    (hf : ShapeStep f) : WithRows results (x >>= f) (y >>= f) := by
  cases h with
  | alike h => exact .alike (outcomes.bind h fun _ _ hs => hf.alike hs)
  | misfit hx hrow hne hy =>
    obtain ⟨w, rfl⟩ := hx
    refine .misfit ⟨w, rfl⟩ hrow hne fun out hout => ?_
    obtain ⟨columns, rfl, hc⟩ := bind_eq_ok_iff.mp hout
    have hlen := hy columns rfl
    have hcolumns : columns ≠ [] := by
      rintro rfl
      exact hne (List.length_eq_zero_iff.mp hlen.symm)
    rw [hf.length hcolumns hc, hlen]

end WithRows

namespace Annotator

variable (a : Annotator) {results : ExecutionResult}

theorem reported_withRows :
    WithRows results (a.reported results) (a.reported results.withoutRows) := by
  by_cases hne : results.columns = []
  · simp only [reported, ExecutionResult.withoutRows, hne, List.isEmpty_nil, if_true]
    exact .refl _
  have hisEmpty : results.columns.isEmpty = false := by simpa using hne
  simp only [reported, ExecutionResult.withoutRows, hisEmpty, Bool.false_eq_true, if_false]
  by_cases hrow : results.Misfits results.columns.length
  · obtain ⟨w, hw⟩ := Native.checkWidth_of_misfits hrow
    refine .misfit ⟨w, by rw [Native.columns, hw]; rfl⟩ hrow hne fun columns hc => ?_
    have hlen := Native.length_columns hc
    exact hlen
  · exact .alike (Native.columns_sameShape hrow)

variable {s : Stage} {inner inner' : Option (Except SchemaError (List Column))}

theorem sourceColumns_withRows (h : Option.Rel (WithRows results) inner inner') :
    WithRows results (a.sourceColumns results s inner)
      (a.sourceColumns results.withoutRows s inner') := by
  unfold sourceColumns
  cases s.source with
  | none => exact .refl _
  | native _ => exact a.reported_withRows
  | table _ =>
    have hstep := (ShapeStep.map (f := fun c => { c with source := some .fields })
      fun _ _ h => ⟨h.name, rfl, h.ident⟩)
    simp only [map_eq_pure_bind]
    exact a.reported_withRows.step hstep
  | stage _ =>
    cases h with
    | none => exact .refl _
    | some h =>
      simp only [map_eq_pure_bind]
      exact h.step (ShapeStep.map fun _ _ h => ⟨h.name, rfl, h.ident⟩)

theorem columnsOver_withRows (h : Option.Rel (WithRows results) inner inner') :
    WithRows results (a.columnsOver results s inner)
      (a.columnsOver results.withoutRows s inner') := by
  rw [columnsOver_eq, columnsOver_eq]
  cases s.columns a.lexicon with
  | error e => exact .refl _
  | ok selected =>
    have hown : WithRows results
        (if selected.isEmpty then a.passedThrough results s inner
          else pure (Merge.declared selected s.metadata))
        (if selected.isEmpty then a.passedThrough results.withoutRows s inner'
          else pure (Merge.declared selected s.metadata)) := by
      split
      · exact (a.sourceColumns_withRows h).step (.overlaid s.metadata)
      · exact .refl _
    exact (hown.step (.model a s)).step .dedupe

theorem chainColumns_withRows (s : Stage) :
    WithRows results (a.chainColumns results s) (a.chainColumns results.withoutRows s) :=
  Stage.foldChain_rel (V := WithRows results) (f := a.columnsOver results)
    (g := a.columnsOver results.withoutRows) (fun _ _ _ h => a.columnsOver_withRows h) s

/-- The rows either leave the number of columns as it is, or they fit neither this number nor
the driver's columns. -/
theorem columnInfo_withoutRows {q : Query} {columns : List Column}
    (h : a.columnInfo q results.withoutRows = .ok columns) :
    (∃ found, a.columnInfo q results = .ok found ∧ found.length = columns.length) ∨
      (∃ w, a.columnInfo q results = .error (.mismatch w)) ∧ results.Misfits columns.length := by
  cases q with
  | native query =>
    change Native.columns a.lexicon results.withoutRows = .ok columns at h
    have hlen := Native.length_columns h
    by_cases hrow : results.Misfits results.columns.length
    · obtain ⟨w, hw⟩ := Native.checkWidth_of_misfits hrow
      exact .inr ⟨⟨w, by rw [columnInfo, Native.columns, hw]; rfl⟩, hlen ▸ hrow⟩
    · obtain ⟨found, hf, hs⟩ := (h ▸ Native.columns_sameShape hrow).exists_ok
      exact .inl ⟨found, hf, hs.length_eq⟩
  | structural s =>
    obtain ⟨hdepth, chain, hchain, rfl⟩ := columnInfo_structural_eq_ok_iff.mp h
    rw [length_dedupe, Merge.length_executed]
    have hrows : WithRows results _ _ := a.chainColumns_withRows s
    cases hrows with
    | alike hagree =>
      obtain ⟨found, hf, hs⟩ := (hchain ▸ hagree).exists_ok
      refine .inl ⟨_, columnInfo_structural_eq_ok_iff.mpr ⟨hdepth, found, hf, rfl⟩, ?_⟩
      rw [length_dedupe, Merge.length_executed, hs.length_eq]
    | misfit hw hrow _ hlen =>
      obtain ⟨w, hw⟩ := hw
      refine .inr ⟨⟨w, ?_⟩, hlen chain hchain ▸ hrow⟩
      rw [columnInfo, checkDepth_eq_ok_iff.mpr hdepth, hw]
      rfl

theorem checkWidth_eq_ok_iff {columns : List Column} :
    checkWidth columns results = .ok () ↔ ¬ results.Misfits columns.length := by
  rw [ExecutionResult.misfits_iff]
  unfold checkWidth
  cases results.rowWidth? with
  | none => simp
  | some width => by_cases h : width = columns.length <;> simp [h]

theorem checkWidth_of_misfits {columns : List Column} (h : results.Misfits columns.length) :
    ∃ w, checkWidth columns results = .error (.mismatch w) := by
  obtain ⟨width, hw, hne⟩ := ExecutionResult.misfits_iff.mp h
  unfold checkWidth
  rw [hw]
  exact ⟨_, if_neg hne⟩

/-- Annotation fails for the width of the rows exactly when the first row is not as wide as
the columns that the query has without rows. Otherwise it has that many columns, and rows
and other keys stay. -/
theorem annotate_width_rule {q : Query} {columns : List Column}
    (h : a.columnInfo q results.withoutRows = .ok columns) :
    ((∃ w, a.annotate q results = .error (.mismatch w)) ↔ results.Misfits columns.length) ∧
      (¬ results.Misfits columns.length → ∃ r, a.annotate q results = .ok r ∧
        r.columns.length = columns.length ∧ r.rows = results.rows ∧ r.extra = results.extra) := by
  have hmisfit (hrow : results.Misfits columns.length) :
      ∃ w, a.annotate q results = .error (.mismatch w) := by
    rcases a.columnInfo_withoutRows h with ⟨found, hf, hlen⟩ | ⟨⟨w, hw⟩, -⟩
    · obtain ⟨w, hw⟩ := checkWidth_of_misfits (hlen ▸ hrow)
      refine ⟨w, ?_⟩
      rw [annotate, hf]
      show (checkWidth found results >>= fun _ => _) = _
      rw [hw]
      rfl
    · exact ⟨w, by rw [annotate, hw]; rfl⟩
  have hfit (hrow : ¬ results.Misfits columns.length) : ∃ r, a.annotate q results = .ok r ∧
      r.columns.length = columns.length ∧ r.rows = results.rows ∧ r.extra = results.extra := by
    rcases a.columnInfo_withoutRows h with ⟨found, hf, hlen⟩ | ⟨-, hrow'⟩
    · refine ⟨⟨found, results.rows, results.extra⟩, ?_, hlen, rfl, rfl⟩
      exact annotate_eq_ok_iff.mpr ⟨hf, checkWidth_eq_ok_iff.mpr (hlen ▸ hrow), rfl, rfl⟩
    · exact absurd hrow' hrow
  refine ⟨⟨?_, hmisfit⟩, hfit⟩
  rintro ⟨w, hw⟩
  by_contra hrow
  obtain ⟨r, hr, -⟩ := hfit hrow
  rw [hr] at hw
  cases hw

theorem annotate_width_rule_of_wide_row :
    ∃ columns,
      columnInfo { lexicon := ⟨fun _ => none, id⟩ } (.structural { source := .native .null })
        { columns := [{ name := "x" }] } = .ok columns ∧
      columns.length = 1 ∧
      ∃ w, annotate { lexicon := ⟨fun _ => none, id⟩ } (.structural { source := .native .null })
        { columns := [{ name := "x" }], rows := [[.null, .null]] } = .error (.mismatch w) := by
  have h : (columnInfo { lexicon := ⟨fun _ => none, id⟩ }
      (.structural { source := .native .null })
      { columns := [{ name := "x" }] }).toOption.map List.length = some 1 := by decide +kernel
  obtain ⟨columns, hc, hn⟩ := exists_of_toOption_map_eq_some h
  refine ⟨columns, hc, hn, ?_⟩
  have hrow : ExecutionResult.Misfits
      { columns := [{ name := "x" }], rows := [[.null, .null]] } columns.length :=
    ⟨_, _, rfl, by rw [hn]; decide⟩
  exact (annotate_width_rule _ hc).1.mpr hrow

end Annotator

end ResultSchema
