import ResultSchema.Proofs.Resolve.Selected
import ResultSchema.Proofs.Result.Annotate
import ResultSchema.Proofs.Result.Native

/-! # Distinct names of result columns

The columns of a stage, of a query and of an annotated result have pairwise distinct names,
whatever names they were given by the catalog, by declarations and by the driver.
-/

namespace ResultSchema

namespace Annotator

variable {a : Annotator} {q : Query} {s : Stage} {results : ExecutionResult} {columns : List Column}

theorem columnInfo_names_nodup (h : a.columnInfo q results = .ok columns) :
    (columns.map (·.name)).Nodup := by
  cases q with
  | native query => exact Native.names_columns_nodup h
  | structural s =>
    obtain ⟨-, chain, -, rfl⟩ := columnInfo_structural_eq_ok_iff.mp h
    exact names_dedupe_nodup _

theorem stageColumns_names_nodup (h : a.stageColumns s = .ok columns) :
    (columns.map (·.name)).Nodup := by
  obtain ⟨-, h⟩ := stageColumns_eq_ok_iff.mp h
  exact Stage.names_columns_nodup h

/-- Whatever names the catalog, the declared columns, the aggregations and the driver give,
the columns of a result, of a query and of a stage have pairwise distinct names. -/
theorem result_names_nodup (a : Annotator) (q : Query) (s : Stage) (results : ExecutionResult) :
    (∀ r, a.annotate q results = .ok r → (r.columns.map (·.name)).Nodup) ∧
      (∀ columns, a.columnInfo q results = .ok columns → (columns.map (·.name)).Nodup) ∧
        ∀ columns, a.stageColumns s = .ok columns → (columns.map (·.name)).Nodup :=
  ⟨fun _ h => columnInfo_names_nodup (annotate_eq_ok_iff.mp h).1,
    fun _ h => columnInfo_names_nodup h, fun _ h => stageColumns_names_nodup h⟩

def repeatedCounts : Stage where
  source := .table 1
  aggregations := [{ clause := .call "count" [] }, { clause := .call "count" [] },
    { clause := .call "sum" [], name := some "count_2" }]

theorem result_names_nodup_of_repeatedCounts :
    ∃ columns,
      columnInfo { lexicon := ⟨fun _ => none, id⟩ } (.structural repeatedCounts)
        { columns := [{ name := "count" }, { name := "count" }] } = .ok columns ∧
      columns.map (·.name) = ["count", "count_2", "count_2_2"] ∧
      (columns.map (·.name)).Nodup := by
  have h : (columnInfo { lexicon := ⟨fun _ => none, id⟩ } (.structural repeatedCounts)
      { columns := [{ name := "count" }, { name := "count" }] }).toOption.map
      (·.map (·.name)) = some ["count", "count_2", "count_2_2"] := by decide +kernel
  obtain ⟨columns, hc, hn⟩ := exists_of_toOption_map_eq_some h
  exact ⟨columns, hc, hn, (result_names_nodup _ _ {} _).2.1 columns hc⟩

end Annotator

end ResultSchema
