import ResultSchema.Proofs.Resolve.Memo
import ResultSchema.Proofs.Resolve.Reselected
import ResultSchema.Proofs.Result.Selecting
import ResultSchema.Proofs.Stage.Chain

/-! # Exposed columns and result columns

The columns that a stage exposes to references and those that it has as a query are computed
along the same chain of stages. They are the same as long as nothing on the way is declared,
scoped to a model or reported by the driver.
-/

namespace ResultSchema

namespace Stage

variable {lexicon : Lexicon} {s : Stage}

theorem visible_of_end (hselects : s.selects = false) (hmetadata : s.metadata = [])
    (hsource : s.sourceStage? = none) : s.visible lexicon = .ok [] := by
  rw [visible_eq_elim hselects hmetadata, hsource, Option.elim_none]

end Stage

namespace Annotator

variable {a : Annotator} {s t : Stage} {results : ExecutionResult} {columns : List Column}

theorem chainColumns_names_nodup (h : a.chainColumns results s = .ok columns) :
    (columns.map (·.name)).Nodup := by
  rw [chainColumns_eq] at h
  obtain ⟨_, _, _, -, -, -, rfl⟩ := columnsOver_eq_ok_iff.mp h
  exact names_dedupe_nodup _

theorem chainColumns_of_not_selects (hselects : s.selects = false) (hmetadata : s.metadata = [])
    (hmodel : s.isModel = false) : a.chainColumns results s =
      dedupe <$> a.sourceColumns results s (s.sourceStage?.map (a.chainColumns results)) := by
  rw [chainColumns_eq, columnsOver_eq, Stage.columns_of_not_selects hselects, hmodel, ok_bind,
    map_eq_pure_bind]
  simp only [List.isEmpty_nil, if_true, passedThrough, hmetadata, Merge.overlaid_nil,
    Bool.false_eq_true, if_false, bind_assoc, pure_bind]
  refine bind_congr fun columns => ?_
  cases columns <;> rfl

theorem chainColumns_of_source (hselects : s.selects = false) (hmetadata : s.metadata = [])
    (hmodel : s.isModel = false) (hsource : s.sourceStage? = some t) :
    a.chainColumns results s = (·.map Column.reselected) <$> a.chainColumns results t := by
  rw [chainColumns_of_not_selects hselects hmetadata hmodel, hsource, Option.map_some,
    sourceColumns_of_source hsource]
  cases ht : a.chainColumns results t with
  | error e => rfl
  | ok columns =>
    have hnames : ((columns.map Column.reselected).map (·.name)).Nodup := by
      rw [List.map_map]
      exact chainColumns_names_nodup ht
    exact congrArg Except.ok (dedupe_of_nodup hnames)

theorem chainColumns_of_end (hselects : s.selects = false) (hmetadata : s.metadata = [])
    (hmodel : s.isModel = false) (hsource : s.sourceStage? = none)
    (hcolumns : results.columns = []) : a.chainColumns results s = .ok [] := by
  rw [chainColumns_of_not_selects hselects hmetadata hmodel, hsource, Option.map_none,
    sourceColumns_of_end hsource hcolumns]
  rfl

/-- The two computations agree along the chain, down to the first stage that selects columns. -/
theorem chainColumns_eq_visible (hroute : ∀ t ∈ s.route, t.metadata = [] ∧ t.isModel = false)
    (hcolumns : results.columns = []) : a.chainColumns results s = s.visible a.lexicon := by
  induction s using Stage.nested_induction with
  | step s hsource _ =>
    obtain ⟨hmetadata, hmodel⟩ := hroute s s.mem_route
    cases hselects : s.selects with
    | true =>
      rw [Stage.visible_of_selects hselects, chainColumns_of_selects hselects, hmodel, hmetadata]
      cases hs : s.columns a.lexicon with
      | error e => rfl
      | ok selected =>
        rw [ok_bind, Merge.declared_nil]
        exact congrArg Except.ok (dedupe_of_nodup (Stage.names_columns_nodup hs))
    | false => cases ht : s.sourceStage? with
      | none =>
        rw [chainColumns_of_end hselects hmetadata hmodel ht hcolumns,
          Stage.visible_of_end hselects hmetadata ht]
      | some t =>
        have hinner : ∀ u ∈ t.route, u.metadata = [] ∧ u.isModel = false := fun u hu =>
          hroute u (Stage.route_of_source hselects ht ▸ List.mem_cons_of_mem s hu)
        rw [chainColumns_of_source hselects hmetadata hmodel ht,
          Stage.visible_of_not_selects hselects hmetadata ht, hsource t ht hinner]

/-- Where no stage that the columns pass declares columns or is a model and the driver reports
none, the columns of a query are those that its stage exposes, and so are the errors; it does
not matter that exposed columns are remembered. -/
theorem columnInfo_eq_visible (hdepth : s.depth ≤ a.config.maxStageDepth)
    (hroute : ∀ t ∈ s.route, t.metadata = [] ∧ t.isModel = false)
    (hcolumns : results.columns = []) :
    a.columnInfo (.structural s) results = s.visible a.lexicon ∧
      a.columnInfo (.structural s) results =
        (Remembering.run (Remembering.survey a.lexicon s []).visible {}).1 := by
  rw [Remembering.run_visible_empty, and_self, ← chainColumns_eq_visible hroute hcolumns,
    columnInfo, checkDepth_eq_ok_iff.mpr hdepth, ok_bind]
  cases hchain : a.chainColumns results s with
  | error e => rfl
  | ok columns =>
    rw [ok_bind, hcolumns, Merge.executed_nil, dedupe_of_nodup (chainColumns_names_nodup hchain)]
    rfl

theorem columnInfo_eq_visible_of_counted :
    columnInfo { lexicon := Stage.priceLexicon }
      (.structural (.ofQuery (.structural (.ofQuery (.structural Stage.counted)))))
      { rows := [[.null]] } = .ok [Stage.countColumn.reselected] := by
  rw [(columnInfo_eq_visible (by decide) (by decide) rfl).1]
  decide +kernel

end Annotator

end ResultSchema
