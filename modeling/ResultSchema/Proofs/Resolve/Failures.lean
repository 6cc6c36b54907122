import ResultSchema.Proofs.Outcome
import ResultSchema.Proofs.Resolve.Memo

/-! # Failures of resolution

Resolution fails for unresolved references only, at every stage of a tree and whatever is
remembered. What composes computations keeps this, so it follows from comparing a survey
with the plain one.
-/

namespace ResultSchema

def SchemaError.IsUnresolved (e : SchemaError) : Prop := ∃ u, e = .unresolved u

/-- An outcome that is an unresolved reference, or a value that some other is related to. -/
inductive Settled {α β : Type} (V : α → β → Prop) : Except SchemaError α → Prop
  | ok {a : α} {b : β} : V a b → Settled V (.ok a)
  | unresolved (u : Unresolved) : Settled V (.error (.unresolved u))

theorem Settled.failsOnly {α β : Type} {V : α → β → Prop} {x : Except SchemaError α}
    (h : Settled V x) : FailsOnly SchemaError.IsUnresolved x := by
  cases h with
  | ok _ => exact .ok _
  | unresolved u => exact .error ⟨u, rfl⟩

/-- Plain computations that settle. What they are compared with only says which values can
come up. -/
def settled : Comparison (Except SchemaError) (Except SchemaError) where
  Rel V x _ := Settled V x
  pure := .ok
  throw _ := .unresolved
  bind := by
    intro α β γ δ V W x y f g hx hf
    cases hx with
    | ok hab => exact hf _ _ hab
    | unresolved u => exact .unresolved u

def settledFromMemo : Comparison Remembering (Except SchemaError) where
  Rel V x _ := ∀ memo, Settled V (Remembering.run x memo).1
  pure h _ := .ok h
  throw _ u _ := .unresolved u
  bind := by
    intro α β γ δ V W x y f g hx hf memo
    have h := hx memo
    rw [Remembering.run_bind]
    rcases hr : Remembering.run x memo with ⟨r, memo'⟩
    rw [hr] at h
    cases h with
    | ok hab => exact hf _ _ hab memo'
    | unresolved u => exact .unresolved u

/-- What a survey can be asked for satisfies `P`. -/
structure Survey.Each {m : Type → Type} [Monad m] [MonadExceptOf SchemaError m]
    (P : ∀ {α : Type}, m α → Prop) (survey : Survey m) : Prop where
  columns : P survey.scope.columns
  visible : P survey.visible
  column : ∀ c, P (survey.scope.column c)
  typing : ∀ c, P (survey.scope.typing c)
  aggregation : ∀ index a, P (survey.scope.aggregation index a)
  field : ∀ f, P (survey.scope.field f)
  expression : ∀ name options, P (survey.scope.expression name options)

theorem Survey.each_of_alike {m : Type → Type} [Monad m] [LawfulMonad m]
    [MonadExceptOf SchemaError m] [LawfulThrow m] {R : Comparison m (Except SchemaError)}
    {D : LabelRelation} {P : ∀ {α : Type}, m α → Prop}
    (hP : ∀ {α β : Type} {V : α → β → Prop} {x : m α} {y : Except SchemaError β},
      R.Rel V x y → P x)
    {survey : Survey m} {scope : Scope (Except SchemaError)}
    {visible : Except SchemaError (List Column)} (hscope : survey.scope.Alike R D scope)
    (hvisible : R.Rel (List.Forall₂ D.Like) survey.visible visible) : survey.Each P where
  columns := hP hscope.columns
  visible := hP hvisible
  column c := hP (hscope.column c)
  typing c := hP (hscope.typing c)
  aggregation index a := hP (hscope.aggregation index a)
  field f := hP (hscope.field f)
  expression name options := hP (hscope.expression name options)

namespace Stage

variable (lexicon : Lexicon) (s : Stage)

theorem survey_failsOnly :
    Survey.Each (FailsOnly SchemaError.IsUnresolved) ⟨s.scope lexicon, s.visible lexicon⟩ := by
  have hkeep : ∀ {path t columns}, s.at? path = some t →
      settled.Rel (List.Forall₂ LabelRelation.same.Like) columns (t.visible lexicon) →
      settled.Rel (List.Forall₂ LabelRelation.same.Like) (keepNothing path columns)
        (t.visible lexicon) := fun _ h => h
  have hs : s.at? [] = some s := rfl
  obtain ⟨hscope, hvisible⟩ := survey_alike (.refl lexicon) hkeep hs
  exact Survey.each_of_alike Settled.failsOnly hscope hvisible

theorem columns_failsOnly : FailsOnly SchemaError.IsUnresolved (s.columns lexicon) :=
  (s.survey_failsOnly lexicon).columns

end Stage

theorem Lexicon.column_failsOnly (lexicon : Lexicon) (id : Int64) :
    FailsOnly SchemaError.IsUnresolved (lexicon.column id) := by
  have h := (Lexicon.Alike.refl (R := settled) (D := .same) lexicon).column id
  rw [← ofExcept_self (lexicon.column id)]
  exact Settled.failsOnly h

namespace Remembering

variable (lexicon : Lexicon)

theorem survey_failsOnly {root s : Stage} {path : StagePath} (hs : root.at? path = some s) :
    (survey lexicon s path).Each fun x => ∀ memo,
      FailsOnly SchemaError.IsUnresolved (run x memo).1 := by
  have hkeep : ∀ {path s columns}, root.at? path = some s →
      settledFromMemo.Rel (List.Forall₂ LabelRelation.same.Like) columns (s.visible lexicon) →
      settledFromMemo.Rel (List.Forall₂ LabelRelation.same.Like) (keep path columns)
        (s.visible lexicon) := by
    intro path s columns _ h memo
    rw [run_keep]
    cases memo.find? path with
    | some found => exact .ok (List.forall₂_same.mpr fun c _ => .refl c)
    | none =>
      have h := h memo
      rcases hr : run columns memo with ⟨r, memo'⟩
      rw [hr] at h
      cases h with
      | ok hab => exact .ok hab
      | unresolved u => exact .unresolved u
  obtain ⟨hscope, hvisible⟩ := Stage.survey_alike (.refl lexicon) hkeep hs
  exact Survey.each_of_alike (fun h memo => (h memo).failsOnly) hscope hvisible

end Remembering

end ResultSchema
