import ResultSchema.Proofs.Resolve.Stacked
import ResultSchema.Proofs.Result.Structure
import ResultSchema.Proofs.Stage.Limit

/-! # Results of stages stacked on a stage

A stage that only reads another one selects the columns of that stage again. Another such stage
around it has the same result, and so have any number of them.
-/

namespace ResultSchema

namespace Stage

variable {s t : Stage} {n : Nat}

/-- The stage reads its source and does nothing else with it. -/
structure Wraps (s : Stage) : Prop extends Forwards s where
  card : s.card = none
  joins : s.joins = []

theorem Wraps.isModel (h : s.Wraps) : s.isModel = false := by
  rw [Stage.isModel, h.card]
  rfl

theorem depth_of_stackedOn (h : StackedOn Wraps s n t) : t.depth = n + s.depth := by
  induction h with
  | base => exact (Nat.zero_add _).symm
  | step _ hsource hwraps ih =>
    rw [depth_eq, hsource, hwraps.joins, Option.map_some, Option.getD_some, ih]
    simp only [List.map_nil, List.foldl_nil, Nat.max_zero]
    omega

end Stage

namespace Annotator

open Stage

variable {a : Annotator} {s t u : Stage} {n : Nat} (results : ExecutionResult)

theorem chainColumns_of_stackedOn (h : StackedOn Wraps s n t) : a.chainColumns results t =
    (·.map (Column.passedOn n)) <$> a.chainColumns results s := by
  induction h with
  | base => cases a.chainColumns results s <;> simp
  | step _ hsource hwraps ih =>
    rw [chainColumns_of_source hwraps.selects hwraps.metadata hwraps.isModel hsource, ih,
      Column.map_reselected_passedOn]

/-- Within the limit of nesting, a query that is wrapped any number of times has the columns, or
the error, of the query that is wrapped once. Before the driver's are laid over them, these are
the columns of the query itself, in their order, each selected again. -/
theorem columnInfo_of_stackedOn (h : StackedOn Wraps s (n + 1) t) (hone : StackedOn Wraps s 1 u)
    (hdepth : t.depth ≤ a.config.maxStageDepth) :
    a.columnInfo (.structural t) results = a.columnInfo (.structural u) results ∧
      a.chainColumns results u = (·.map Column.reselected) <$> a.chainColumns results s ∧
      ∀ c : Column, c.reselected.reselected = c.reselected := by
  have hlimit : u.depth ≤ a.config.maxStageDepth := by
    rw [depth_of_stackedOn h] at hdepth
    rw [depth_of_stackedOn hone]
    omega
  have ht : a.chainColumns results t = (·.map Column.reselected) <$> a.chainColumns results s :=
    chainColumns_of_stackedOn results h
  have hu : a.chainColumns results u = (·.map Column.reselected) <$> a.chainColumns results s :=
    chainColumns_of_stackedOn results hone
  refine ⟨?_, hu, Column.reselected_reselected⟩
  rw [columnInfo_structural, columnInfo_structural, checkDepth_eq_ok_iff.mpr hdepth,
    checkDepth_eq_ok_iff.mpr hlimit, ht, hu]

def countsAgain : Stage := .ofQuery (.structural countedTwice)

theorem columnInfo_of_stackedOn_countsAgain :
    (priceOnly.columnInfo (.structural countsAgain) firstAsText).toOption.map (·.map (·.name)) =
        some ["count", "count_2"] ∧
      countsAgain.sourceStage? = some countedTwice ∧
      priceOnly.columnInfo (.structural (.ofQuery (.structural (.ofQuery (.structural
        countsAgain))))) firstAsText = priceOnly.columnInfo (.structural countsAgain) firstAsText ∧
      priceOnly.chainColumns firstAsText countsAgain =
        (·.map Column.reselected) <$> priceOnly.chainColumns firstAsText countedTwice := by
  have hwraps (q : Query) : Wraps (.ofQuery q) := ⟨⟨rfl, rfl⟩, rfl, rfl⟩
  have hone : StackedOn Wraps countedTwice 1 countsAgain := .step .base rfl (hwraps _)
  have hthree : StackedOn Wraps countedTwice 3
      (.ofQuery (.structural (.ofQuery (.structural countsAgain)))) :=
    .step (.step hone rfl (hwraps _)) rfl (hwraps _)
  obtain ⟨hinfo, hchain, -⟩ :=
    columnInfo_of_stackedOn (a := priceOnly) firstAsText hthree hone (by decide)
  exact ⟨by decide +kernel, rfl, hinfo, hchain⟩

end Annotator

end ResultSchema
