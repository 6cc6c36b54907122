import ResultSchema.Proofs.Comparison
import ResultSchema.Proofs.Names.Unique
import ResultSchema.Proofs.Result.Merge

/-! # Shapes of columns

The name, the provenance and the ident of a column decide how the pipeline goes on with it.
Columns of the same shape are passed on alike, and no step loses a column.
-/

namespace ResultSchema

/-- Columns with the same name, provenance and ident. -/
structure Column.SameShape (c d : Column) : Prop where
  name : c.name = d.name
  source : c.source = d.source
  ident : c.ident = d.ident

namespace Column.SameShape

variable {c d : Column}

theorem refl (c : Column) : c.SameShape c := ⟨rfl, rfl, rfl⟩

theorem refl_list (columns : List Column) : List.Forall₂ SameShape columns columns :=
  List.forall₂_same.mpr fun c _ => refl c

theorem ownsIdent_eq (h : c.SameShape d) : c.ownsIdent = d.ownsIdent := by
  unfold ownsIdent
  rw [h.source]

theorem withDeclared (h : c.SameShape d) (declared : Column) :
    (c.withDeclared declared).SameShape (d.withDeclared declared) := by
  refine ⟨h.name, h.source, ?_⟩
  show c.mergedIdent declared.ident = d.mergedIdent declared.ident
  unfold mergedIdent
  rw [h.ownsIdent_eq, h.ident]

theorem dedupe {columns others : List Column} (h : List.Forall₂ SameShape columns others) :
    List.Forall₂ SameShape (dedupe columns) (ResultSchema.dedupe others) :=
  dedupe_forall₂ (fun _ _ h => h.name) (fun _ _ _ h => ⟨rfl, h.source, h.ident⟩) h

theorem modelColumn (h : c.SameShape d) (a : Annotator) (entityId : String) :
    Agree SameShape (a.modelColumn entityId c) (a.modelColumn entityId d) := by
  unfold Annotator.modelColumn
  rw [← h.ident, ← h.ownsIdent_eq, ← h.name]
  cases c.ident with
  | none =>
    cases a.config.production with
    | false => exact .error _
    | true => exact .ok h
  | some ident =>
    cases c.ownsIdent with
    | false =>
      simp only [Bool.false_eq_true, if_false]
      exact .ok ⟨rfl, h.source, rfl⟩
    | true => exact .ok h

end Column.SameShape

namespace Merge

theorem overlaid_sameShape {columns others : List Column}
    (h : List.Forall₂ Column.SameShape columns others) (declared : List Column) :
    List.Forall₂ Column.SameShape (overlaid columns declared) (overlaid others declared) :=
  overlaid_forall₂ (fun _ _ d hcd => hcd.withDeclared d) h declared

end Merge

/-- A step of the pipeline: columns of the same shape go on alike, and none is lost or added. -/
structure ShapeStep (f : List Column → Except SchemaError (List Column)) : Prop where
  alike : ∀ {columns others}, List.Forall₂ Column.SameShape columns others →
    Agree (List.Forall₂ Column.SameShape) (f columns) (f others)
  length : ∀ {columns out}, columns ≠ [] → f columns = .ok out → out.length = columns.length

namespace ShapeStep

theorem map {f : Column → Column} (hf : ∀ c d, c.SameShape d → (f c).SameShape (f d)) :
    ShapeStep fun columns => pure (columns.map f) where
  alike h := .ok (List.rel_map hf h)
  length _ h := by
    cases h
    exact List.length_map _

theorem dedupe : ShapeStep fun columns => pure (dedupe columns) where
  alike h := .ok (Column.SameShape.dedupe h)
  length _ h := by
    cases h
    exact length_dedupe _

theorem overlaid (metadata : List Column) : ShapeStep fun columns =>
    pure (if columns.isEmpty then metadata else Merge.overlaid columns metadata) where
  alike h := by
    refine .ok ?_
    cases h with
    | nil => exact Column.SameShape.refl_list _
    | cons hcd hrest => exact Merge.overlaid_sameShape (.cons hcd hrest) metadata
  length hne h := by
    cases h
    rw [if_neg (by simpa using hne), Merge.length_overlaid]

theorem model (a : Annotator) (s : Stage) : ShapeStep fun columns =>
    if s.isModel then a.modelColumns s columns else pure columns where
  alike h := by
    split
    · unfold Annotator.modelColumns
      cases s.card.bind (·.entityId) with
      | none =>
        cases a.config.production with
        | false => exact .error _
        | true => exact .ok h
      | some entityId =>
        exact Comparison.mapM (R := outcomes) (h.imp fun c d hcd => hcd.modelColumn a entityId)
    · exact .ok h
  length _ h := by
    split at h
    · exact Annotator.length_modelColumns h
    · cases h; rfl

end ShapeStep

end ResultSchema
