import ResultSchema.Proofs.Result.Failures
import ResultSchema.Proofs.Result.Selecting
import ResultSchema.Proofs.Result.Simulation

/-! # Development and production

Models may lack facts in production only. The two modes stay in step up to the first fact
that is missing, so what development does not stop has the same outcome in production.
-/

namespace ResultSchema

/-- Two runs of which the first is stopped by an inconsistency, or that have related outcomes. -/
def unlessInconsistent : Comparison (Except SchemaError) (Except SchemaError) where
  Rel V x y := (∃ i, x = .error (.inconsistent i)) ∨ Agree V x y
  pure h := .inr (.ok h)
  throw _ _ := .inr (.error _)
  bind := by
    rintro α β γ δ V W x y f g (⟨i, rfl⟩ | hxy) hf
    · exact .inl ⟨i, rfl⟩
    · cases hxy with
      | ok hab => exact hf _ _ hab
      | error e => exact .inr (.error e)

/-- Two runs in step: the first is stopped by an inconsistency, or they have the same outcome. -/
def InStep {α : Type} (x y : Except SchemaError α) : Prop := unlessInconsistent.Rel Eq x y

theorem InStep.eq {α : Type} {x y : Except SchemaError α} (h : InStep x y)
    (hx : ∀ i, x ≠ .error (.inconsistent i)) : y = x := by
  obtain ⟨i, hi⟩ | hxy := h
  · exact absurd hi (hx i)
  · exact hxy.eq.symm

namespace Annotator

def inMode (a : Annotator) (production : Bool) : Annotator :=
  { a with config := { a.config with production } }

variable (a : Annotator) {results : ExecutionResult}

/-- The modes part at most where a model misses something. -/
theorem modelColumns_inStep (s : Stage) (columns : List Column) :
    unlessInconsistent.Rel (List.Forall₂ LabelRelation.same.Like)
      ((a.inMode false).modelColumns s columns) ((a.inMode true).modelColumns s columns) := by
  unfold modelColumns
  cases s.card.bind (·.entityId) with
  | none => exact .inl ⟨_, rfl⟩
  | some entityId =>
    refine Comparison.mapM (List.forall₂_same.mpr fun c _ => ?_)
    unfold modelColumn
    cases c.ident with
    | none => exact .inl ⟨_, rfl⟩
    | some ident => exact .inr (.refl .refl _)

theorem simulation_of_modes :
    Simulation unlessInconsistent .same (a.inMode false) (a.inMode true) Eq := by
  refine simulation_of_lexicon .inr (.refl a.lexicon) rfl fun {s columns others} hc => ?_
  obtain rfl := LabelRelation.Like.list_eq hc
  exact a.modelColumns_inStep s columns

theorem annotate_inStep (q : Query) :
    InStep ((a.inMode false).annotate q results) ((a.inMode true).annotate q results) := by
  obtain hstopped | hagree := (simulation_of_modes a).annotate (.of_eq q) results
  · exact .inl hstopped
  · exact .inr (hagree.imp fun _ _ hr => hr.eq)

/-- An annotation that has another outcome than an inconsistency in development has the same
outcome in production, and in production no outcome is an inconsistency. -/
theorem annotate_modes (a : Annotator) (q : Query) (results : ExecutionResult) :
    ((∀ i, (a.inMode false).annotate q results ≠ .error (.inconsistent i)) →
      (a.inMode true).annotate q results = (a.inMode false).annotate q results) ∧
    ∀ i, (a.inMode true).annotate q results ≠ .error (.inconsistent i) := by
  refine ⟨(a.annotate_inStep q).eq, fun i h => ?_⟩
  cases failure_of_annotate h nofun with
  | inconsistent i s hmode => exact nomatch hmode

def passedModel : Stage where
  source := .stage {
    source := .table 1
    card := some { entityId := some "e", model := true }
    fields := [.field ⟨.id 2, {}⟩] }

theorem annotate_modes_of_passedModel :
    ∃ r, (priceOnly.inMode false).annotate (.structural passedModel) {} = .ok r ∧
      (priceOnly.inMode true).annotate (.structural passedModel) {} = .ok r ∧
      r.columns.map (·.ident) = [some "model[e]__f-price"] := by
  have h : ((priceOnly.inMode false).annotate (.structural passedModel) {}).toOption.map
      (·.columns.map (·.ident)) = some [some "model[e]__f-price"] := by decide +kernel
  obtain ⟨r, hr, hidents⟩ := exists_of_toOption_map_eq_some h
  refine ⟨r, hr, ?_, hidents⟩
  rw [(annotate_modes priceOnly _ _).1 (by rw [hr]; nofun), hr]

/-- What development misses in a model without an entity, production passes over. -/
example : (priceOnly.inMode false).annotate (.structural { card := some { model := true } }) {} =
      .error (.inconsistent .modelWithoutEntity) ∧
    (priceOnly.inMode true).annotate (.structural { card := some { model := true } }) {} =
      .ok ⟨[], [], .empty⟩ := by decide +kernel

end Annotator

end ResultSchema
