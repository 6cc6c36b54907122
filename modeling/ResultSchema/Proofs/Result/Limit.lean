import ResultSchema.Proofs.Result.Failures

/-! # Limits of nesting from reading to annotation

A query that was read under a limit is never too deep for an annotator that allows as many
levels. Under a lower limit it is read the same or reported as too deep, by its depth.
-/

namespace ResultSchema.Query

variable {v : Json} {low high : Nat} {q : Query}

/-- A document that is read under one limit is read the same under a lower one that its depth
keeps to, and else it is refused at the first level below that limit. Its depth keeps to the
limit that it was read under, and so to that of every annotator that allows as much. -/
theorem read_lower_limit (hle : low ≤ high) (h : read v high = .ok q) :
    (q.depth ≤ low → read v low = .ok q) ∧
    (low < q.depth → ∃ e, read v low = .error e ∧ e.fault = .tooDeep (low + 1) low) ∧
    q.depth ≤ high ∧
    ∀ a : Annotator, high ≤ a.config.maxStageDepth →
      (∀ s, q.stage? = some s → a.checkDepth s = .ok ()) ∧
      ∀ results depth max, a.annotate q results ≠ .error (.nestingTooDeep depth max) := by
  obtain ⟨hfits, hdeep⟩ := read_capped hle v q h
  have hdepth : q.depth ≤ high := depth_le_of_read h
  refine ⟨hfits, fun hlow => hdeep (Nat.not_le.mpr hlow), hdepth, fun a ha => ⟨?_, ?_⟩⟩
  · intro s hs
    have hq : q.depth = s.depth := by
      rw [depth, hs]
      rfl
    exact Annotator.checkDepth_eq_ok_iff.mpr (hq ▸ Nat.le_trans hdepth ha)
  · intro results depth max hfail
    obtain ⟨hlt, -, -⟩ := Annotator.annotate_nestingTooDeep_iff.mp hfail
    omega

def joinedNative : Json :=
  .obj [("type", .str "query"), ("query", .obj [("source-query", .obj [("source-table", .int 1),
    ("joins", .arr [.obj [("alias", .str "A"), ("source-table", .int 2),
      ("source-query", .obj [("native", .str "select 1")])]])])])]

theorem read_lower_limit_of_joinedNative :
    ∃ q, read joinedNative 8 = .ok q ∧ q.depth = 3 ∧ read joinedNative 3 = .ok q ∧
      ∃ e, read joinedNative 2 = .error e ∧ e.fault = .tooDeep 3 2 := by
  have h : (read joinedNative 8).toOption.map depth = some 3 := by decide +kernel
  obtain ⟨q, hq, hdepth⟩ := exists_of_toOption_map_eq_some h
  have hthree : 3 ≤ 8 := by decide
  have htwo : 2 ≤ 8 := by decide
  refine ⟨q, hq, hdepth, ?_, ?_⟩
  · exact (read_lower_limit hthree hq).1 (by omega)
  · exact (read_lower_limit htwo hq).2.1 (by omega)

end ResultSchema.Query
