import ResultSchema.Proofs.Lookup
import ResultSchema.Proofs.Outcome
import ResultSchema.Proofs.Resolve.Survey
import ResultSchema.Proofs.Stage.Rearranged

/-! # Resolution with joins and expressions in another order

A join that is not found is reported with the aliases that there are, in their order, so two
rearranged stages may fail with different errors. Where the aliases of each stage are distinct,
one of them gives an answer exactly when the other does, and it is the same.
-/

namespace ResultSchema

/-- Computations that give related answers or both fail, be it with different errors. -/
def successes : Comparison (Except SchemaError) (Except SchemaError) where
  Rel V x y := Option.Rel V x.toOption y.toOption
  pure h := .some h
  throw _ _ := .none
  bind := by
    intro α β γ δ V W x y f g hxy hf
    cases x <;> cases y
    · exact .none
    · cases hxy
    · cases hxy
    · cases hxy with
      | some hab => exact hf _ _ hab

theorem eq_ok_iff_of_successes {α : Type} {V : α → α → Prop} {x y : Except SchemaError α}
    (h : successes.Rel V x y) (hV : ∀ a b, V a b → a = b) (a : α) : x = .ok a ↔ y = .ok a := by
  cases x <;> cases y
  · exact iff_of_false nofun nofun
  · cases h
  · cases h
  · cases h with
    | some hab => rw [hV _ _ hab]

variable {D : LabelRelation}

/-- It does not matter how the search for a join fails. -/
theorem Scope.lifted_join_iff {a b : Scope (Except SchemaError)} {joinAlias : String} :
    successes.Lifted (ScopedJoin.Alike successes D) (a.join joinAlias) (b.join joinAlias) ↔
      Option.Rel (ScopedJoin.Alike successes D)
        (a.joins.find? (·.join.joinAlias == joinAlias))
        (b.joins.find? (·.join.joinAlias == joinAlias)) := by
  have hjoin : ∀ scope : Scope (Except SchemaError),
      (MonadExcept.ofExcept (scope.join joinAlias) : Except SchemaError _).toOption =
        scope.joins.find? (·.join.joinAlias == joinAlias) := by
    intro scope
    rw [ofExcept_self]
    unfold Scope.join
    cases scope.joins.find? (·.join.joinAlias == joinAlias) <;> rfl
  rw [← hjoin a, ← hjoin b]
  exact Iff.rfl

/-- The join as it is named from its stage. -/
def Join.scoped (lexicon : Lexicon) (j : Join Stage) : ScopedJoin (Except SchemaError) :=
  ⟨j, j.stage.visible lexicon⟩

namespace Stage

variable {s t : Stage}

theorem Rearranged.declaresJoin_eq (h : s.Rearranged t) : s.declaresJoin = t.declaresJoin := by
  funext joinAlias
  obtain ⟨related, hrelated, hperm⟩ := h.joins
  have hany : ∀ joins : List (Join Stage), joins.any (·.joinAlias == joinAlias) =
      (joins.map (·.joinAlias)).any (· == joinAlias) := by
    intro joins
    rw [List.any_map]
    rfl
  unfold declaresJoin
  rw [hany, hany, aliases_eq hrelated]
  exact (hperm.map _).any_eq

theorem Rearranged.alike (h : s.Rearranged t) : s.Alike t where
  metadata := h.metadata_eq
  card := congrArg Option.isSome h.card_eq
  declaresJoin := h.declaresJoin_eq
  breakouts := by cases h; rfl
  aggregations := by cases h; rfl
  fields := by cases h; rfl
  expression := by
    cases h with
    | mk _ _ _ hexpressions => exact OrderedMap.get?_eq_of_perm hexpressions
  expressionCount := by
    cases h with
    | mk _ _ _ hexpressions => exact hexpressions.length_eq

variable (lexicon : Lexicon)

/-- The joins of a stage are found alike under their aliases, which are distinct, when the joined
stages are seen alike. -/
theorem Rearranged.find?_scoped (h : s.Rearranged t) (hs : (s.joins.map (·.joinAlias)).Nodup)
    (hjoins : ∀ j ∈ s.joins, ∀ u, j.stage.Rearranged u →
      successes.Rel (List.Forall₂ D.Like) (j.stage.visible lexicon) (u.visible lexicon))
    (joinAlias : String) :
    Option.Rel (ScopedJoin.Alike successes D)
      ((s.joins.map (·.scoped lexicon)).find? (·.join.joinAlias == joinAlias))
      ((t.joins.map (·.scoped lexicon)).find? (·.join.joinAlias == joinAlias)) := by
  obtain ⟨related, hrelated, hperm⟩ := h.joins
  have halike : List.Forall₂ (ScopedJoin.Alike successes D) (s.joins.map (·.scoped lexicon))
      (related.map (·.scoped lexicon)) := by
    rw [List.forall₂_map_left_iff, List.forall₂_map_right_iff]
    refine ((List.forall₂_and_left _ _).mpr ⟨hjoins, hrelated⟩).imp ?_
    rintro _ _ ⟨hj, ⟨hstage⟩⟩
    exact ⟨⟨rfl, rfl, rfl⟩, hj _ hstage⟩
  have hnodup : ((related.map (·.scoped lexicon)).map (·.join.joinAlias)).Nodup := by
    rw [← ScopedJoin.Alike.aliases_eq halike, List.map_map]
    exact hs
  rw [← find?_key_of_perm (hperm.map _) hnodup]
  exact ScopedJoin.Alike.find? halike joinAlias

theorem Rearranged.scope_alike (h : s.Rearranged t) (hs : s.DistinctAliases) :
    (s.scope lexicon).Alike successes .same (t.scope lexicon) := by
  induction s using nested_induction generalizing t with
  | step s ihsource ihjoins =>
    refine ⟨?_, ?_, ?_, fun joinAlias => Scope.lifted_join_iff.mpr ?_⟩
    · rw [scope_lexicon, scope_lexicon]
      exact .refl lexicon
    · rw [scope_stage, scope_stage]
      exact h.alike
    · rw [scope_source, scope_source]
      exact optionRel_map h.source.stage? fun u hu v huv =>
        visible_alike (ihsource u hu huv (hs.source hu))
    · rw [scope_joins, scope_joins, List.find?_append, List.find?_append]
      have hjoins : ∀ j ∈ s.joins, ∀ u, j.stage.Rearranged u →
          successes.Rel (List.Forall₂ LabelRelation.same.Like) (j.stage.visible lexicon)
            (u.visible lexicon) :=
        fun j hj u hu => visible_alike (ihjoins j hj hu (hs.join hj))
      have hinner : Option.Rel (fun js ks : List (ScopedJoin (Except SchemaError)) =>
          Option.Rel (ScopedJoin.Alike successes .same)
            (js.find? (·.join.joinAlias == joinAlias)) (ks.find? (·.join.joinAlias == joinAlias)))
          (s.sourceStage?.map fun u => (u.scope lexicon).joins)
          (t.sourceStage?.map fun v => (v.scope lexicon).joins) :=
        optionRel_map h.source.stage? fun u hu v huv =>
          Scope.lifted_join_iff.mp ((ihsource u hu huv (hs.source hu)).join joinAlias)
      refine optionRel_or (h.find?_scoped lexicon hs.own hjoins joinAlias) ?_
      generalize s.sourceStage?.map (fun u => (u.scope lexicon).joins) = js at hinner ⊢
      generalize t.sourceStage?.map (fun v => (v.scope lexicon).joins) = ks at hinner ⊢
      cases hinner with
      | none => exact .none
      | some hinner => exact hinner

end Stage

end ResultSchema
