import ResultSchema.Proofs.Resolve.Columns
import ResultSchema.Resolve.Visible

/-! # Surveys of nested stages

The survey of a stage is unfolded one level at a time. A survey whose `keep` is faithful is
alike to the plain one at every stage of the tree.
-/

namespace ResultSchema

namespace Stage

section Unfolding

variable {m : Type → Type} [Monad m] [MonadExceptOf SchemaError m]
variable (lexicon : Lexicon) (keep : StagePath → m (List Column) → m (List Column))
variable (s : Stage) (path : StagePath)

theorem survey_eq : s.survey lexicon keep path =
    let source := s.sourceStage?.map fun t => t.survey lexicon keep (path ++ [.source])
    let scope : Scope m := {
      lexicon
      stage := s
      source := source.map (·.visible)
      joins := s.joins.zipWith ScopedJoin.mk (s.joins.zipIdx.map fun (j, i) =>
          (j.stage.survey lexicon keep (path ++ [.join i])).visible)
        ++ (source.map (·.scope.joins)).getD [] }
    { scope, visible := keep path scope.exposed } := by
  unfold survey
  rw [fold_eq]
  simp only [Option.map_map, List.zipIdx_map, List.map_map]
  rfl

@[simp] theorem survey_lexicon : (s.survey lexicon keep path).scope.lexicon = lexicon := by
  rw [survey_eq]

@[simp] theorem survey_stage : (s.survey lexicon keep path).scope.stage = s := by rw [survey_eq]

theorem survey_source : (s.survey lexicon keep path).scope.source =
    s.sourceStage?.map fun t => (t.survey lexicon keep (path ++ [.source])).visible := by
  rw [survey_eq]
  exact Option.map_map _ _ _

theorem survey_joins : (s.survey lexicon keep path).scope.joins =
    (s.joins.zipIdx.map fun (j, i) =>
        ⟨j, (j.stage.survey lexicon keep (path ++ [.join i])).visible⟩)
      ++ (s.sourceStage?.map fun t =>
        (t.survey lexicon keep (path ++ [.source])).scope.joins).getD [] := by
  rw [survey_eq]
  simp only [Option.map_map]
  nth_rewrite 1 [← List.zipIdx_map_fst 0 s.joins]
  rw [List.zipWith_map, List.zipWith_self]
  rfl

theorem survey_visible : (s.survey lexicon keep path).visible =
    keep path (s.survey lexicon keep path).scope.exposed := by
  rw [survey_eq]

end Unfolding

section Plain

variable (lexicon : Lexicon)

abbrev keepNothing (_ : StagePath) (columns : Except SchemaError (List Column)) :
    Except SchemaError (List Column) := columns

theorem survey_keepNothing (s : Stage) (path : StagePath) :
    s.survey lexicon keepNothing path = s.survey lexicon keepNothing [] := by
  induction s using nested_induction generalizing path with
  | step s hsource hjoins =>
    have hs : ∀ path : StagePath,
        (s.sourceStage?.map fun t => t.survey lexicon keepNothing (path ++ [.source])) =
          s.sourceStage?.map fun t => t.survey lexicon keepNothing [] :=
      fun path => Option.map_congr fun t ht => hsource t ht _
    have hj : ∀ path : StagePath, (s.joins.zipIdx.map fun (j, i) =>
          (j.stage.survey lexicon keepNothing (path ++ [.join i])).visible) =
        s.joins.zipIdx.map fun (j, _) => (j.stage.survey lexicon keepNothing []).visible := by
      intro path
      refine List.map_congr_left fun x hx => ?_
      exact congrArg Survey.visible (hjoins x.1 (List.fst_mem_of_mem_zipIdx hx) _)
    rw [survey_eq, survey_eq, hs, hs, hj, hj]

variable (s : Stage)

@[simp] theorem scope_lexicon : (s.scope lexicon).lexicon = lexicon := survey_lexicon ..

@[simp] theorem scope_stage : (s.scope lexicon).stage = s := survey_stage ..

theorem scope_source : (s.scope lexicon).source = s.sourceStage?.map (·.visible lexicon) := by
  unfold scope
  rw [survey_source]
  exact Option.map_congr fun t _ => congrArg Survey.visible (survey_keepNothing lexicon t _)

theorem scope_joins : (s.scope lexicon).joins =
    s.joins.map (fun j => ⟨j, j.stage.visible lexicon⟩)
      ++ (s.sourceStage?.map fun t => (t.scope lexicon).joins).getD [] := by
  unfold scope
  rw [survey_joins]
  simp only [survey_keepNothing]
  nth_rewrite 2 [← List.zipIdx_map_fst 0 s.joins]
  rw [List.map_map]
  rfl

theorem visible_eq : s.visible lexicon = (s.scope lexicon).exposed := survey_visible ..

variable {lexicon s}

theorem visible_alike {R : Comparison (Except SchemaError) (Except SchemaError)}
    {D : LabelRelation} {k : Lexicon} {t : Stage}
    (h : (s.scope lexicon).Alike R D (t.scope k)) :
    R.Rel (List.Forall₂ D.Like) (s.visible lexicon) (t.visible k) := by
  rw [visible_eq, visible_eq]
  exact h.exposed

end Plain

theorem at?_append (root : Stage) (path rest : StagePath) :
    root.at? (path ++ rest) = (root.at? path).bind (·.at? rest) := by
  induction path generalizing root with
  | nil => rfl
  | cons step path ih =>
    cases step with
    | source =>
      simp only [List.cons_append, at?, Option.bind_assoc]
      exact Option.bind_congr fun t _ => ih t
    | join i =>
      simp only [List.cons_append, at?, Option.bind_assoc]
      exact Option.bind_congr fun j _ => ih j.stage

theorem at?_source {root s t : Stage} {path : StagePath} (h : root.at? path = some s)
    (ht : s.sourceStage? = some t) : root.at? (path ++ [.source]) = some t := by
  simp [at?_append, h, at?, ht]

theorem at?_join {root s : Stage} {path : StagePath} {j : Join Stage} {i : Nat}
    (h : root.at? path = some s) (hj : s.joins[i]? = some j) :
    root.at? (path ++ [.join i]) = some j.stage := by
  simp [at?_append, h, at?, hj]

section Alike

variable {m : Type → Type} [Monad m] [LawfulMonad m] [MonadExceptOf SchemaError m] [LawfulThrow m]
variable {R : Comparison m (Except SchemaError)} {D : LabelRelation} {l k : Lexicon}
variable {keep : StagePath → m (List Column) → m (List Column)} {root : Stage}

/-- A survey is alike to the plain one when keeping what a stage exposes is. -/
theorem survey_alike (hl : l.Alike R D k)
    (hkeep : ∀ {path s columns}, root.at? path = some s →
      R.Rel (List.Forall₂ D.Like) columns (s.visible k) →
      R.Rel (List.Forall₂ D.Like) (keep path columns) (s.visible k))
    {s : Stage} {path : StagePath} (hs : root.at? path = some s) :
    (s.survey l keep path).scope.Alike R D (s.scope k) ∧
      R.Rel (List.Forall₂ D.Like) (s.survey l keep path).visible (s.visible k) := by
  -- The joins are compared as lists: those of the source stage are listed after the stage's own.
  suffices h : List.Forall₂ (ScopedJoin.Alike R D) (s.survey l keep path).scope.joins
      (s.scope k).joins ∧ (s.survey l keep path).scope.Alike R D (s.scope k) ∧
      R.Rel (List.Forall₂ D.Like) (s.survey l keep path).visible (s.visible k) from h.2
  induction s using nested_induction generalizing path with
  | step s hsource hjoins =>
    have hj : List.Forall₂ (ScopedJoin.Alike R D) (s.survey l keep path).scope.joins
        (s.scope k).joins := by
      rw [survey_joins, scope_joins]
      refine List.rel_append ?_ ?_
      · nth_rewrite 2 [← List.zipIdx_map_fst 0 s.joins]
        rw [List.map_map, List.forall₂_map_left_iff, List.forall₂_map_right_iff]
        refine List.forall₂_same.mpr fun x hx => ⟨.refl _, ?_⟩
        have hi := List.mk_mem_zipIdx_iff_getElem?.mp hx
        exact (hjoins x.1 (List.fst_mem_of_mem_zipIdx hx) (at?_join hs hi)).2.2
      · cases ht : s.sourceStage? with
        | none => exact .nil
        | some t => exact (hsource t ht (at?_source hs ht)).1
    have hscope : (s.survey l keep path).scope.Alike R D (s.scope k) := by
      refine ⟨?_, ?_, ?_, Scope.Alike.join_of_forall₂ hj⟩
      · rwa [survey_lexicon, scope_lexicon]
      · rw [survey_stage, scope_stage]
        exact .refl s
      · rw [survey_source, scope_source]
        cases ht : s.sourceStage? with
        | none => exact .none
        | some t => exact .some (hsource t ht (at?_source hs ht)).2.2
    refine ⟨hj, hscope, ?_⟩
    rw [survey_visible]
    exact hkeep hs (visible_eq k s ▸ hscope.exposed)

end Alike

end Stage

end ResultSchema
