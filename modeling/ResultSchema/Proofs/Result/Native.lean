import ResultSchema.Proofs.Names.Unique
import ResultSchema.Proofs.Outcome
import ResultSchema.Result.Native
import Mathlib.Tactic.Set

/-! # Columns of native queries

The columns line up with those that the driver reports. Each has the name that was handed
out for it and is marked as native.
-/

namespace ResultSchema.Native

variable {lexicon : Lexicon} {results : ExecutionResult}

theorem column_eq_ok {raw : RawColumn} {sample : Option Json} {unique : String} {c : Column}
    (h : column lexicon raw sample unique = .ok c) : c.name = unique ∧ c.source = some .native := by
  unfold column at h
  split at h
  · simp only [ofCatalog, bind_eq_ok_iff, pure, Except.pure, Except.ok.injEq] at h
    obtain ⟨_, -, rfl⟩ := h
    exact ⟨rfl, rfl⟩
  · cases h
    exact ⟨rfl, rfl⟩

theorem map_fst_zip_names (results : ExecutionResult) :
    (results.columns.zip (UniqueNames.freshAll {} results.columnNames)).map Prod.fst =
      results.columns := List.map_fst_zip (by simp [ExecutionResult.columnNames])

theorem forall₂_zipIdx_columns {columns : List Column}
    (h : Native.columns lexicon results = .ok columns) :
    List.Forall₂ (fun x c => ∃ unique,
        column lexicon x.1 (results.rows.head?.bind (·[x.2]?)) unique = .ok c)
      results.columns.zipIdx columns := by
  obtain ⟨_, -, h⟩ := bind_eq_ok_iff.mp h
  rw [← map_fst_zip_names results, List.zipIdx_map, List.forall₂_map_left_iff]
  exact (mapM_eq_ok_iff.mp h).imp fun x c hc => ⟨x.1.2, hc⟩

theorem forall₂_columns {columns : List Column} (h : Native.columns lexicon results = .ok columns) :
    List.Forall₂ (fun raw c => ∃ sample unique, column lexicon raw sample unique = .ok c)
      results.columns columns := by
  rw [← List.zipIdx_map_fst 0 results.columns, List.forall₂_map_left_iff]
  exact (forall₂_zipIdx_columns h).imp fun _ _ ⟨unique, hc⟩ => ⟨_, unique, hc⟩

theorem map_columns {β : Type} {view : Column → β} {k : RawColumn × String → β}
    (hview : ∀ raw sample unique c, column lexicon raw sample unique = .ok c →
      view c = k (raw, unique)) {columns : List Column}
    (h : Native.columns lexicon results = .ok columns) : columns.map view =
      (results.columns.zip (UniqueNames.freshAll {} results.columnNames)).map k := by
  simp only [Native.columns, bind_eq_ok_iff] at h
  obtain ⟨_, -, h⟩ := h
  set pairs := results.columns.zip (UniqueNames.freshAll {} results.columnNames)
  calc columns.map view
    _ = pairs.zipIdx.map (k ∘ Prod.fst) := map_of_mapM_eq_ok (fun _ _ => hview _ _ _ _) h
    _ = pairs.map k := by rw [← List.map_map, List.zipIdx_map_fst]

theorem names_columns {columns : List Column} (h : Native.columns lexicon results = .ok columns) :
    columns.map (·.name) = UniqueNames.freshAll {} results.columnNames := by
  rw [map_columns (k := Prod.snd) (fun _ _ _ _ hc => (column_eq_ok hc).1) h]
  exact List.map_snd_zip (by simp [ExecutionResult.columnNames])

theorem names_columns_nodup {columns : List Column}
    (h : Native.columns lexicon results = .ok columns) : (columns.map (·.name)).Nodup := by
  rw [names_columns h]
  exact UniqueNames.freshAll_nodup {} _

theorem length_columns {columns : List Column} (h : Native.columns lexicon results = .ok columns) :
    columns.length = results.columns.length := by
  have hn := congrArg List.length (names_columns h)
  simpa [ExecutionResult.columnNames] using hn

end ResultSchema.Native
