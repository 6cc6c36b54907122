import ResultSchema.Proofs.Outcome
import ResultSchema.Proofs.Stage.Chain
import ResultSchema.Proofs.Stage.Limit
import Mathlib.Data.List.Perm.Basic

/-! # Joins and expressions in another order

The joins and the named expressions of a stage are meant by their names. Two trees of stages may
differ in the order in which these are written, at any depth, and are else the same.
-/

namespace ResultSchema

/-- Joins that are the same but for their stages, which are related. -/
inductive Join.Rel {σ τ : Type} (S : σ → τ → Prop) : Join σ → Join τ → Prop
  | mk {joinAlias : String} {stage : σ} {stage' : τ} {condition : Option Clause}
      {fkFieldId : Option Int64} {ident : Option String} : S stage stage' →
      Rel S ⟨joinAlias, stage, condition, fkFieldId, ident⟩
        ⟨joinAlias, stage', condition, fkFieldId, ident⟩

/-- Stages that are the same but for the order of joins and named expressions, in themselves and
in the stages that they read and join. -/
inductive Stage.Rearranged : Stage → Stage → Prop
  | mk {source source' : Source Stage} {metadata : List Column} {card : Option SourceCard}
      {joins related joins' : List (Join Stage)} {breakouts : List Breakout}
      {aggregations : List Aggregation} {expressions expressions' : OrderedMap NamedExpression}
      {fields : List Clause} :
      Source.Rel Rearranged source source' →
      List.Forall₂ (Join.Rel Rearranged) joins related → related.Perm joins' →
      expressions.entries.Perm expressions'.entries →
      Rearranged ⟨source, metadata, card, joins, breakouts, aggregations, expressions, fields⟩
        ⟨source', metadata, card, joins', breakouts, aggregations, expressions', fields⟩

/-- No two joins of a stage have the same alias, in any stage of the tree. -/
def Stage.DistinctAliases : Stage → Prop :=
  Stage.Throughout fun s => (s.joins.map (·.joinAlias)).Nodup

namespace Query

abbrev Rearranged : Query → Query → Prop := Rel Stage.Rearranged

def DistinctAliases (q : Query) : Prop := ∀ s, q.stage? = some s → s.DistinctAliases

end Query

namespace Stage.Rearranged

variable {s t : Stage}

theorem refl (s : Stage) : s.Rearranged s := by
  induction s using Stage.nested_induction with
  | step s ihsource ihjoins =>
    obtain ⟨source, _, _, joins, _, _, _, _⟩ := s
    refine .mk ?_ (List.forall₂_same.mpr fun j hj => ?_) (.refl _) (.refl _)
    · exact (Source.Rel.of_eq source).imp fun t ht _ heq => heq ▸ ihsource t ht
    · obtain ⟨_, _, _, _, _⟩ := j
      exact .mk (ihjoins _ hj)

theorem source (h : s.Rearranged t) : Source.Rel Rearranged s.source t.source := by
  cases h with
  | mk hsource hjoins hperm hexpressions => exact hsource

theorem joins (h : s.Rearranged t) :
    ∃ related, List.Forall₂ (Join.Rel Rearranged) s.joins related ∧ related.Perm t.joins := by
  cases h with
  | mk hsource hjoins hperm hexpressions => exact ⟨_, hjoins, hperm⟩

theorem metadata_eq (h : s.Rearranged t) : s.metadata = t.metadata := by cases h; rfl

theorem card_eq (h : s.Rearranged t) : s.card = t.card := by cases h; rfl

theorem aliases_eq {joins related : List (Join Stage)}
    (h : List.Forall₂ (Join.Rel Rearranged) joins related) :
    joins.map (·.joinAlias) = related.map (·.joinAlias) := by
  refine map_eq_map_of_forall₂ ?_ h
  rintro _ _ ⟨-⟩
  rfl

theorem depth_eq (h : s.Rearranged t) : s.depth = t.depth := by
  induction s using Stage.nested_induction generalizing t with
  | step s ihsource ihjoins =>
    have hsource : s.sourceStage?.map depth = t.sourceStage?.map depth :=
      eq_of_optionRel (optionRel_map h.source.stage? fun u hu v huv => ihsource u hu huv)
    obtain ⟨related, hrelated, hperm⟩ := h.joins
    have hdepths : s.joins.map (fun j => j.stage.depth) = related.map fun j => j.stage.depth := by
      refine map_eq_map_of_forall₂ ?_ ((List.forall₂_and_left _ _).mpr ⟨ihjoins, hrelated⟩)
      rintro _ _ ⟨ih, ⟨hstage⟩⟩
      exact ih hstage
    have hmax : ∀ x ∈ related.map (fun j => j.stage.depth),
        ∀ y ∈ related.map (fun j => j.stage.depth), ∀ z : Nat, max (max z x) y = max (max z y) x := by
      intro x _ y _ z
      omega
    rw [Stage.depth_eq, Stage.depth_eq t, hsource, hdepths,
      (hperm.map fun j => j.stage.depth).foldl_eq' hmax]

end Stage.Rearranged

end ResultSchema
