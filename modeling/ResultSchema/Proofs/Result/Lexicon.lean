import ResultSchema.Proofs.Resolve.Emitted
import ResultSchema.Proofs.Result.Simulation

/-! # Annotation under two lexicons

What is known outside the query is a catalog and a humanizer. The humanizer only ever makes
labels, and a field that is missing from the catalog is never made up for: annotation depends on
the one in its labels only, and a larger catalog changes no annotation that succeeds.
-/

namespace ResultSchema

def Column.unlabelled (c : Column) : Column := c.labelled ""

def AnnotatedResult.unlabelled (r : AnnotatedResult) : AnnotatedResult :=
  { r with columns := r.columns.map Column.unlabelled }

namespace LabelRelation

/-- Every label is as good as another. -/
def any : LabelRelation := ⟨fun _ _ => True, fun _ => trivial, fun _ _ => trivial⟩

theorem Like.unlabelled_eq {c d : Column} (h : any.Like c d) : c.unlabelled = d.unlabelled := by
  obtain ⟨_, -, rfl⟩ := h; rfl

theorem Like.map_unlabelled_eq {columns others : List Column}
    (h : List.Forall₂ any.Like columns others) :
    columns.map Column.unlabelled = others.map Column.unlabelled :=
  map_eq_map_of_forall₂ (V := any.Like) (fun _ _ hcd => hcd.unlabelled_eq) h

end LabelRelation

theorem AnnotatedResult.Alike.unlabelled_eq {r r' : AnnotatedResult}
    (h : r.Alike LabelRelation.any r') : r.unlabelled = r'.unlabelled := by
  unfold AnnotatedResult.unlabelled
  rw [LabelRelation.Like.map_unlabelled_eq h.columns, h.rows, h.extra]

/-- Every field that the catalog knows is known alike to the other one. -/
def Catalog.Within (catalog other : Catalog) : Prop :=
  ∀ id f, catalog id = some f → other id = some f

/-- Computations of which the second gives a related answer where the first gives one. -/
def refinement : Comparison (Except SchemaError) (Except SchemaError) where
  Rel V x y := ∀ a, x = .ok a → ∃ b, y = .ok b ∧ V a b
  pure h := by
    rintro _ ⟨⟩
    exact ⟨_, rfl, h⟩
  throw _ _ _ h := nomatch h
  bind := by
    intro α β γ δ V W x y f g hx hf c hc
    obtain ⟨a, ha, hc⟩ := bind_eq_ok_iff.mp hc
    obtain ⟨b, hb, hab⟩ := hx a ha
    obtain ⟨d, hd, hcd⟩ := hf a b hab c hc
    exact ⟨d, bind_eq_ok_iff.mpr ⟨b, hb, hd⟩, hcd⟩

theorem refinement_coarse : refinement.Coarse := by
  rintro α β V _ _ (hab | e) a ha
  · cases ha
    exact ⟨_, rfl, hab⟩
  · cases ha

namespace Annotator

variable (catalog : Catalog) (humanizer humanizer' : Humanizer) (config : Config)

theorem simulation_of_humanizers : Simulation outcomes .any ⟨⟨catalog, humanizer⟩, config⟩
    ⟨⟨catalog, humanizer'⟩, config⟩ Eq :=
  simulation_of_lexicon id ⟨(Lexicon.Alike.refl (D := .any) ⟨catalog, humanizer⟩).field,
    fun _ => trivial⟩ rfl (modelColumns_alike id rfl rfl)

/-- The humanizer makes labels only: under two of them an annotation fails with the same error
or gives results that are the same without their labels, and so do the columns of a stage. -/
theorem unlabelled_annotate_eq :
    (∀ q results,
      AnnotatedResult.unlabelled <$> annotate ⟨⟨catalog, humanizer⟩, config⟩ q results =
        AnnotatedResult.unlabelled <$> annotate ⟨⟨catalog, humanizer'⟩, config⟩ q results) ∧
    ∀ s, List.map Column.unlabelled <$> stageColumns ⟨⟨catalog, humanizer⟩, config⟩ s =
      List.map Column.unlabelled <$> stageColumns ⟨⟨catalog, humanizer'⟩, config⟩ s := by
  have hsim := simulation_of_humanizers catalog humanizer humanizer' config
  refine ⟨fun q results => ?_, fun s => ?_⟩
  · have hagree : Agree (AnnotatedResult.Alike .any) _ _ := hsim.annotate (.of_eq q) results
    exact hagree.map_eq fun _ _ h => h.unlabelled_eq
  · have hagree : Agree (List.Forall₂ LabelRelation.any.Like) _ _ := hsim.stageColumns (Eq.refl s)
    exact hagree.map_eq fun _ _ h => LabelRelation.Like.map_unlabelled_eq h

/-- A raw name is spelled out in the label of its column and in that of an aggregate, and nowhere
else. -/
example : ((annotate { lexicon := ⟨fun _ => none, fun name => name ++ "!"⟩ }
      (.structural {
        source := .table 1
        breakouts := [{ clause := .field ⟨.name "total", {}⟩ }]
        aggregations := [{ clause := .call "max" [.field ⟨.name "total", {}⟩] }] })
      {}).toOption.map (·.columns.map fun c => (c.name, c.displayName))) =
    some [("total", "total!"), ("max", "Max of total!")] := by decide +kernel

variable {catalog} {other : Catalog}

theorem simulation_of_within (h : catalog.Within other) : Simulation refinement .same
    ⟨⟨catalog, humanizer⟩, config⟩ ⟨⟨other, humanizer⟩, config⟩ Eq := by
  have hfield : ∀ id, refinement.Lifted Eq (Lexicon.field ⟨catalog, humanizer⟩ id)
      (Lexicon.field ⟨other, humanizer⟩ id) := by
    intro id
    simp only [Lexicon.field]
    cases hf : catalog id with
    -- The other catalog may know the field: nothing is said of a computation that fails.
    | none => exact fun _ hnone => nomatch hnone
    | some f =>
      rw [h id f hf]
      exact refinement.pure rfl
  exact simulation_of_lexicon refinement_coarse ⟨hfield, fun _ => rfl⟩ rfl
    (modelColumns_alike refinement_coarse rfl rfl)

/-- What is annotated with the help of a catalog is annotated the same with the help of one that
knows more fields, and so are the columns of a stage. -/
theorem annotate_of_within (h : catalog.Within other) :
    (∀ q results r, annotate ⟨⟨catalog, humanizer⟩, config⟩ q results = .ok r →
      annotate ⟨⟨other, humanizer⟩, config⟩ q results = .ok r) ∧
    ∀ s columns, stageColumns ⟨⟨catalog, humanizer⟩, config⟩ s = .ok columns →
      stageColumns ⟨⟨other, humanizer⟩, config⟩ s = .ok columns := by
  have hsim := simulation_of_within humanizer config h
  refine ⟨fun q results r hr => ?_, fun s columns hc => ?_⟩
  · obtain ⟨r', hr', hlike⟩ := hsim.annotate (.of_eq q) results r hr
    rwa [hlike.eq]
  · obtain ⟨others, ho, hlike⟩ := hsim.stageColumns (Eq.refl s) columns hc
    rwa [LabelRelation.Like.list_eq hlike]

def agedCatalog : Catalog := fun id =>
  if id = 3 then some { id, name := "age", displayName := "Age", baseType := .integer }
  else Stage.ownerLexicon.catalog id

def ownerNames : Stage :=
  { Stage.owned with fields := [
      .field ⟨.id 2, { joinAlias := some "P" }⟩,
      .field ⟨.id 2, { sourceField := some 1 }⟩,
      .field ⟨.name "name", {}⟩] }

theorem annotate_of_within_agedCatalog :
    Stage.ownerLexicon.catalog.Within agedCatalog ∧
    ∃ r, annotate { lexicon := Stage.ownerLexicon } (.structural ownerNames) {} = .ok r ∧
      r.columns.map (fun c => (c.name, c.displayName)) = [("name", "Owner → Full Name"),
        ("name_2", "Owner → Full Name"), ("name_3", "Name")] ∧
      annotate { lexicon := ⟨agedCatalog, Stage.ownerLexicon.humanizer⟩ } (.structural ownerNames)
        {} = .ok r := by
  have hwithin : Stage.ownerLexicon.catalog.Within agedCatalog := by
    intro id f hf
    have hne : id ≠ 3 := by
      rintro rfl
      cases hf
    rwa [agedCatalog, if_neg hne]
  have h : (annotate { lexicon := Stage.ownerLexicon } (.structural ownerNames) {}).toOption.map
      (·.columns.map fun c => (c.name, c.displayName)) = some [("name", "Owner → Full Name"),
        ("name_2", "Owner → Full Name"), ("name_3", "Name")] := by decide +kernel
  obtain ⟨r, hr, hview⟩ := exists_of_toOption_map_eq_some h
  exact ⟨hwithin, r, hr, hview, (annotate_of_within _ {} hwithin).1 _ _ r hr⟩

end Annotator

end ResultSchema
