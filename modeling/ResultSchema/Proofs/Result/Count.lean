import ResultSchema.Proofs.Result.Links
import ResultSchema.Proofs.Stage.Chain

/-! # Numbers of result columns

No column is lost or doubled along a chain of stages. Their number can be read off the
chain: it is that of the first selecting stage, else that of the driver's columns, else that
of the innermost declared ones.
-/

namespace ResultSchema

namespace Stage

variable {s t : Stage} {reported : Nat}

/-- How many columns come out of the chain of a stage, if the driver reports that many. -/
def columnCount (reported : Nat) (s : Stage) : Nat :=
  match s.selecting? with
  | some t => t.selectedCount
  | none => if s.endsOutside ∧ reported ≠ 0 then reported else s.declaredCount

theorem columnCount_of_selects (h : s.selects) : s.columnCount reported = s.selectedCount := by
  rw [columnCount, selecting?_of_selects h]

theorem columnCount_of_source (hs : s.selects = false) (h : s.sourceStage? = some t) :
    s.columnCount reported =
      if t.columnCount reported = 0 then s.metadata.length else t.columnCount reported := by
  unfold columnCount
  rw [selecting?_of_source hs h, endsOutside_of_source h, declaredCount_of_source h]
  cases ht : t.selecting? with
  | some u => exact (if_neg (selectedCount_ne_zero (selects_of_selecting? ht))).symm
  | none =>
    dsimp only
    by_cases hr : t.endsOutside ∧ reported ≠ 0
    · rw [if_pos hr, if_pos hr, if_neg hr.2]
    · rw [if_neg hr, if_neg hr]

theorem columnCount_of_end (hs : s.selects = false) (h : s.sourceStage? = none) :
    s.columnCount reported =
      if s.source.isOutside ∧ reported ≠ 0 then reported else s.metadata.length := by
  rw [columnCount, selecting?_of_end hs h, endsOutside_of_end h, declaredCount_of_end h]

theorem columnCount_of_passesOutside (h : s.passesOutside) (hr : reported ≠ 0) :
    s.columnCount reported = reported := by
  unfold passesOutside at h
  obtain ⟨hnone, houtside⟩ := Bool.and_eq_true_iff.mp h
  rw [columnCount, Option.isNone_iff_eq_none.mp hnone]
  exact if_pos ⟨houtside, hr⟩

variable {results : ExecutionResult}

theorem length_selectedLinks (s : Stage) : s.selectedLinks.length = s.selectedCount := by
  simp [selectedLinks, selectedCount, Nat.add_assoc]

theorem length_passedLinks (inner : Option (List Link)) :
    (s.passedLinks results inner).length =
      if (s.sourceLinks results inner).length = 0 then s.metadata.length
      else (s.sourceLinks results inner).length := by
  unfold passedLinks
  cases s.sourceLinks results inner <;> simp

theorem sourceLinks_of_source (h : s.sourceStage? = some t) (links : List Link) :
    s.sourceLinks results (some links) = links.map Link.reselected := by
  rw [sourceLinks, sourceStage?_eq_some_iff.mp h]
  rfl

theorem length_sourceLinks_of_end (h : s.sourceStage? = none) :
    (s.sourceLinks results none).length =
      if s.source.isOutside then results.columns.length else 0 := by
  unfold sourceLinks
  cases hs : s.source with
  | stage t => simp [sourceStage?_eq_some_iff.mpr hs] at h
  | native query => simp [Source.isOutside]
  | table id => simp [Source.isOutside]
  | none => rfl

theorem length_links (s : Stage) :
    (s.links results).length = s.columnCount results.columns.length := by
  induction s using nested_induction with
  | step s hsource _ =>
    rw [links_eq]
    cases hs : s.selects with
    | true =>
      rw [columnCount_of_selects hs]
      exact s.length_selectedLinks
    | false =>
      simp only [Bool.false_eq_true, if_false]
      rw [length_passedLinks]
      cases ht : s.sourceStage? with
      | some t =>
        rw [columnCount_of_source hs ht, Option.map_some, sourceLinks_of_source ht,
          List.length_map, hsource t ht]
      | none =>
        rw [columnCount_of_end hs ht, Option.map_none, length_sourceLinks_of_end ht]
        cases s.source.isOutside <;> simp

end Stage

namespace Annotator

variable {a : Annotator} {s : Stage} {results : ExecutionResult} {columns : List Column}

/-- The first selecting stage on the chain has a column for each of its breakouts,
aggregations and listed fields; else there are as many columns as the driver or the innermost
declaration has. -/
theorem length_columnInfo (h : a.columnInfo (.structural s) results = .ok columns) :
    columns.length = s.columnCount results.columns.length := by
  rw [← Stage.length_links, ← columnInfo_links columns h, List.length_map]

def noFields : Annotator where
  lexicon := { catalog := fun _ => none, humanizer := id }

def nestedDeclared : Stage where
  source := .stage {
    source := .stage { source := .table 1 }
    metadata := [{ name := "x" }, { name := "y" }] }
  metadata := [{ name := "x" }, { name := "y" }, { name := "z" }]
  card := some { entityId := some "e", model := true }

theorem length_columnInfo_of_nestedDeclared :
    ∃ columns, noFields.columnInfo (.structural nestedDeclared) {} = .ok columns ∧
      columns.length = nestedDeclared.columnCount 0 ∧ nestedDeclared.columnCount 0 = 2 := by
  have h : (noFields.columnInfo (.structural nestedDeclared) {}).toOption.map
      (·.map (·.name)) = some ["x", "y"] := by decide +kernel
  obtain ⟨columns, hc, -⟩ := exists_of_toOption_map_eq_some h
  exact ⟨columns, hc, length_columnInfo hc, by decide⟩

end Annotator

end ResultSchema
