import ResultSchema.Proofs.Resolve.Emitted
import ResultSchema.Proofs.Resolve.Rearranged
import ResultSchema.Proofs.Result.Lexicon

/-! # Annotation with joins and expressions in another order

Joins and named expressions are meant by their names. Where no two joins of a stage have the
same alias, the order in which they are written decides at most how an annotation fails.
-/

namespace ResultSchema

theorem successes_coarse : successes.Coarse := by
  rintro α β V _ _ (hab | e)
  · exact .some hab
  · exact .none

namespace Annotator

variable (a : Annotator)

theorem simulation_of_rearranged :
    Simulation successes .same a a fun s t => s.Rearranged t ∧ s.DistinctAliases where
  coarse := successes_coarse
  lexicon := .refl a.lexicon
  maxStageDepth := rfl
  source := by
    rintro s t ⟨h, hs⟩
    exact h.source.imp fun u hu v huv => ⟨huv, hs.source hu⟩
  metadata h := h.1.metadata_eq
  card h := h.1.card_eq
  depth h := h.1.depth_eq
  columns h := (h.1.scope_alike a.lexicon h.2).columns
  modelColumns h := modelColumns_alike successes_coarse rfl h.1.card_eq

variable {q q' : Query}

/-- In another order of joins and named expressions, at any depth, an annotation gives the same
result, or none in either order. -/
theorem annotate_rearranged (h : q.Rearranged q') (hq : q.DistinctAliases)
    (results : ExecutionResult) (r : AnnotatedResult) :
    a.annotate q results = .ok r ↔ a.annotate q' results = .ok r := by
  have hrel : q.Rel (fun s t => s.Rearranged t ∧ s.DistinctAliases) q' := by
    cases h with
    | structural hst => exact .structural ⟨hst, hq _ rfl⟩
    | native query => exact .native query
  have halike := (simulation_of_rearranged a).annotate hrel results
  exact eq_ok_iff_of_successes halike (fun _ _ hr => hr.eq) r

def person : Stage := (Stage.ofTable 2).withField (.field ⟨.id 2, {}⟩)

def owner : Join Stage := .implicit "P" person 1

def seller : Join Stage := .explicit "Q" person (.literal (.int 1))

def age : String × NamedExpression := ("age", { clause := .literal (.int 30) })

def nextAge : String × NamedExpression :=
  ("next", { clause := .call "+" [.expression "age" {}, .literal (.int 1)] })

def sale : Stage where
  source := .table 1
  joins := [owner, seller]
  expressions := ⟨[age, nextAge], by decide⟩
  fields := [.field ⟨.name "name", { joinAlias := some "P" }⟩,
    .field ⟨.name "name", { joinAlias := some "Q" }⟩, .expression "next" {}]

def saleReversed : Stage :=
  { sale with joins := [seller, owner], expressions := ⟨[nextAge, age], by decide⟩ }

theorem distinctAliases_sale : sale.DistinctAliases := by
  have hperson : person.DistinctAliases := Stage.throughout_iff.mpr ⟨.nil, nofun, nofun⟩
  refine Stage.throughout_iff.mpr ⟨by decide, nofun, fun j hj => ?_⟩
  rcases List.mem_pair.mp hj with rfl | rfl <;> exact hperson

theorem sale_rearranged : sale.Rearranged saleReversed := by
  have hjoins : List.Forall₂ (Join.Rel Stage.Rearranged) sale.joins sale.joins :=
    .cons (.mk (.refl person)) (.cons (.mk (.refl person)) .nil)
  exact .mk (.table 1) hjoins (.swap seller owner []) (.swap nextAge age [])

theorem annotate_rearranged_sale :
    (Query.structural (.ofQuery (.structural sale))).Rearranged
        (.structural (.ofQuery (.structural saleReversed))) ∧
      (Query.structural (.ofQuery (.structural sale))).DistinctAliases ∧
      ∃ r, annotate { lexicon := Stage.ownerLexicon }
          (.structural (.ofQuery (.structural sale))) {} = .ok r ∧
        r.columns.map (fun c => (c.name, c.displayName)) = [("name", "Owner → Full Name"),
          ("name_2", "Q → Full Name"), ("next", "next")] ∧
        annotate { lexicon := Stage.ownerLexicon }
          (.structural (.ofQuery (.structural saleReversed))) {} = .ok r := by
  have hrel : (Query.structural (.ofQuery (.structural sale))).Rearranged
      (.structural (.ofQuery (.structural saleReversed))) :=
    .structural (.mk (.stage sale_rearranged) .nil .nil .nil)
  have hdistinct : (Query.structural (.ofQuery (.structural sale))).DistinctAliases := by
    rintro _ ⟨⟩
    refine Stage.throughout_iff.mpr ⟨.nil, fun t ht => ?_, nofun⟩
    cases ht
    exact distinctAliases_sale
  have h : (annotate { lexicon := Stage.ownerLexicon }
      (.structural (.ofQuery (.structural sale))) {}).toOption.map
        (·.columns.map fun c => (c.name, c.displayName)) = some [("name", "Owner → Full Name"),
          ("name_2", "Q → Full Name"), ("next", "next")] := by decide +kernel
  obtain ⟨r, hr, hview⟩ := exists_of_toOption_map_eq_some h
  exact ⟨hrel, hdistinct, r, hr, hview, (annotate_rearranged _ hrel hdistinct {} r).mp hr⟩

end Annotator

end ResultSchema
