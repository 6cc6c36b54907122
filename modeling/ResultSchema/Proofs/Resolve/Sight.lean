import ResultSchema.Proofs.Resolve.Selected
import ResultSchema.Proofs.Stage.Chain

/-! # Joins in sight

An alias is looked up along the chain of source stages. The nearest stage that declares it decides,
and there the first join that is declared under it. What a joined stage declares is not on the
chain.
-/

namespace ResultSchema

namespace Scope

variable {m : Type → Type} {scope : Scope m} {joinAlias : String}

theorem exists_join_iff {join : Join Stage} :
    (∃ j, scope.join joinAlias = .ok j ∧ j.join = join) ↔
      (scope.joins.map (·.join)).find? (·.joinAlias == joinAlias) = some join := by
  unfold Scope.join
  rw [List.find?_map]
  simp only [Function.comp_def]
  cases scope.joins.find? (·.join.joinAlias == joinAlias) <;> simp

theorem join_eq_error_iff {e : SchemaError} : scope.join joinAlias = .error e ↔
    (scope.joins.map (·.join)).find? (·.joinAlias == joinAlias) = none ∧
      e = .unresolved (.join joinAlias (scope.joins.map (·.join.joinAlias))) := by
  unfold Scope.join
  rw [List.find?_map]
  simp only [Function.comp_def]
  cases scope.joins.find? (·.join.joinAlias == joinAlias) <;> simp [eq_comm]

end Scope

namespace Stage

variable {s t : Stage} {joinAlias : String} {join : Join Stage} {before : List Stage}

theorem joinsInSight_eq_flatMap (s : Stage) : s.joinsInSight = s.chain.flatMap (·.joins) := by
  induction s using nested_induction with
  | step s hsource _ =>
    rw [joinsInSight_eq, chain_eq, List.flatMap_cons]
    cases ht : s.sourceStage? with
    | none => rfl
    | some t => exact congrArg (s.joins ++ ·) (hsource t ht)

theorem declaresJoin_eq_false_iff :
    s.declaresJoin joinAlias = false ↔ s.joins.find? (·.joinAlias == joinAlias) = none := by
  simp [declaresJoin]

/-- The join that an alias means is declared by the stage after those before it on the chain, as the
first under the alias, and none of those before declares the alias. -/
structure Finds (s : Stage) (joinAlias : String) (before : List Stage) (t : Stage)
    (join : Join Stage) : Prop where
  on_chain : ∃ after, s.chain = before ++ t :: after
  first : t.joins.find? (·.joinAlias == joinAlias) = some join
  nearest : ∀ u ∈ before, u.declaresJoin joinAlias = false

theorem join?_eq_some_iff :
    s.join? joinAlias = some join ↔ ∃ before t, s.Finds joinAlias before t join := by
  unfold join?
  rw [joinsInSight_eq_flatMap, List.find?_flatMap, List.findSome?_eq_some_iff]
  constructor
  · rintro ⟨before, t, after, hchain, hfirst, hbefore⟩
    refine ⟨before, t, ⟨after, hchain⟩, hfirst, ?_⟩
    intro u hu
    exact declaresJoin_eq_false_iff.mpr (hbefore u hu)
  · rintro ⟨before, t, ⟨after, hchain⟩, hfirst, hnearest⟩
    refine ⟨before, t, after, hchain, hfirst, ?_⟩
    intro u hu
    exact declaresJoin_eq_false_iff.mp (hnearest u hu)

theorem join?_eq_none_iff :
    s.join? joinAlias = none ↔ ∀ t ∈ s.chain, t.declaresJoin joinAlias = false := by
  unfold join?
  rw [joinsInSight_eq_flatMap, List.find?_flatMap, List.findSome?_eq_none_iff]
  simp only [declaresJoin_eq_false_iff]

theorem exists_join?_iff :
    (∃ join, s.join? joinAlias = some join) ↔ ∃ t ∈ s.chain, t.declaresJoin joinAlias := by
  rw [← Option.ne_none_iff_exists', ne_eq, join?_eq_none_iff]
  simp

theorem Finds.declaresJoin_iff (h : s.Finds joinAlias before t join) :
    s.declaresJoin join.joinAlias ↔ before = [] := by
  have hname : join.joinAlias = joinAlias := by simpa using List.find?_some h.first
  obtain ⟨after, hchain⟩ := h.on_chain
  rw [chain_eq] at hchain
  rw [hname]
  cases before with
  | nil =>
    obtain ⟨rfl, -⟩ := List.cons.inj hchain
    simp only [iff_true]
    rw [← Bool.not_eq_false, declaresJoin_eq_false_iff, h.first]
    exact Option.some_ne_none join
  | cons u before =>
    obtain ⟨rfl, -⟩ := List.cons.inj hchain
    simp [h.nearest s List.mem_cons_self]

section Survey

variable {m : Type → Type} [Monad m] [MonadExceptOf SchemaError m]
variable (lexicon : Lexicon) (keep : StagePath → m (List Column) → m (List Column))

theorem map_join_survey_joins (s : Stage) (path : StagePath) :
    (s.survey lexicon keep path).scope.joins.map (·.join) = s.joinsInSight := by
  induction s using nested_induction generalizing path with
  | step s hsource _ =>
    have hown (visible : Join Stage × Nat → m (List Column)) :
        (s.joins.zipIdx.map fun x => ScopedJoin.mk x.1 (visible x)).map (·.join) = s.joins := by
      rw [List.map_map]
      exact List.zipIdx_map_fst 0 s.joins
    rw [survey_joins, joinsInSight_eq, List.map_append, hown]
    cases ht : s.sourceStage? with
    | none => rfl
    | some t => exact congrArg (s.joins ++ ·) (hsource t ht _)

variable {lexicon keep} {path : StagePath}

theorem exists_survey_join_iff :
    (∃ j, (s.survey lexicon keep path).scope.join joinAlias = .ok j ∧ j.join = join) ↔
      s.join? joinAlias = some join := by
  rw [Scope.exists_join_iff, map_join_survey_joins, join?]

theorem survey_join_eq_error_iff {e : SchemaError} :
    (s.survey lexicon keep path).scope.join joinAlias = .error e ↔ s.join? joinAlias = none ∧
      e = .unresolved (.join joinAlias (s.joinsInSight.map (·.joinAlias))) := by
  have haliases : (s.survey lexicon keep path).scope.joins.map (·.join.joinAlias) =
      s.joinsInSight.map (·.joinAlias) := by
    rw [← map_join_survey_joins lexicon keep s path, List.map_map]
    rfl
  rw [Scope.join_eq_error_iff, map_join_survey_joins, haliases, join?]

variable (lexicon keep)

/-- An alias means the first join under it in the nearest stage of the chain that declares it, and
none when no stage of the chain declares it: then the aliases of the chain are listed in order. The
join counts as one of the stage itself exactly when the stage is the nearest. -/
theorem join_scoping (s : Stage) (path : StagePath) (joinAlias : String) :
    (∀ join, (∃ j, (s.survey lexicon keep path).scope.join joinAlias = .ok j ∧ j.join = join) ↔
      ∃ before t, s.Finds joinAlias before t join) ∧
    ((∃ j, (s.survey lexicon keep path).scope.join joinAlias = .ok j) ↔
      ∃ t ∈ s.chain, t.declaresJoin joinAlias) ∧
    (∀ before t join, s.Finds joinAlias before t join →
      ((s.survey lexicon keep path).scope.stage.declaresJoin join.joinAlias ↔ before = [])) ∧
    ∀ e, (s.survey lexicon keep path).scope.join joinAlias = .error e ↔
      (∀ t ∈ s.chain, t.declaresJoin joinAlias = false) ∧
        e = .unresolved (.join joinAlias (s.chain.flatMap fun t => t.joins.map (·.joinAlias))) := by
  refine ⟨fun join => ?_, ?_, fun before t join h => ?_, fun e => ?_⟩
  · rw [exists_survey_join_iff, join?_eq_some_iff]
  · rw [← exists_join?_iff]
    constructor
    · rintro ⟨j, hj⟩
      exact ⟨j.join, exists_survey_join_iff.mp ⟨j, hj, rfl⟩⟩
    · rintro ⟨join, hjoin⟩
      obtain ⟨j, hj, -⟩ : ∃ j, (s.survey lexicon keep path).scope.join joinAlias = .ok j ∧
        j.join = join := exists_survey_join_iff.mpr hjoin
      exact ⟨j, hj⟩
  · rw [survey_stage]
    exact h.declaresJoin_iff
  · rw [survey_join_eq_error_iff, join?_eq_none_iff, joinsInSight_eq_flatMap, List.map_flatMap]

end Survey

def ownersJoin : Join Stage := { joinAlias := "Owners", stage := { source := .table 4 } }

def joinedOrders : Stage where
  source := .table 1
  joins := [{ joinAlias := "People", stage := { source := .table 2 } }, ownersJoin]

def rejoinedOrders : Stage where
  source := .stage joinedOrders
  joins := [{
    joinAlias := "People"
    stage := { source := .table 2, joins := [{ joinAlias := "Cities", stage := {} }] } }]

theorem join_scoping_of_rejoinedOrders :
    rejoinedOrders.Finds "Owners" [rejoinedOrders] joinedOrders ownersJoin ∧
    ¬ (rejoinedOrders.scope ⟨fun _ => none, id⟩).stage.declaresJoin "Owners" ∧
    (rejoinedOrders.scope ⟨fun _ => none, id⟩).join "Cities" =
      .error (.unresolved (.join "Cities" ["People", "People", "Owners"])) := by
  have howners : rejoinedOrders.Finds "Owners" [rejoinedOrders] joinedOrders ownersJoin := by
    refine ⟨⟨[], rfl⟩, by rfl, ?_⟩
    intro u hu
    cases List.mem_singleton.mp hu
    decide
  obtain ⟨-, -, hlevel, -⟩ :=
    join_scoping ⟨fun _ => none, id⟩ keepNothing rejoinedOrders [] "Owners"
  obtain ⟨-, -, -, hfails⟩ :=
    join_scoping ⟨fun _ => none, id⟩ keepNothing rejoinedOrders [] "Cities"
  refine ⟨howners, ?_, (hfails _).mpr ⟨by decide, rfl⟩⟩
  intro hdeclared
  exact absurd ((hlevel _ _ _ howners).mp hdeclared) (List.cons_ne_nil _ _)

end Stage

end ResultSchema
