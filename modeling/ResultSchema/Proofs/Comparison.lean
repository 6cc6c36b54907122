import ResultSchema.Resolve.Error
import Mathlib.Data.List.Forall2

/-! # Comparing computations

A comparison relates the computations of two monads: they give related answers, or they
fail in ways that count as alike. It is kept by composing computations, so it extends from
the parts of a resolution to the whole.
-/

namespace ResultSchema

/-- Nothing is computed after an error. -/
class LawfulThrow (m : Type → Type) [Monad m] [MonadExceptOf SchemaError m] : Prop where
  throw_bind : ∀ {α β : Type} (e : SchemaError) (f : α → m β), (throw e >>= f) = throw e

instance : LawfulThrow (Except SchemaError) := ⟨fun _ _ => rfl⟩

instance {σ : Type} : LawfulThrow (ExceptT SchemaError (StateM σ)) := ⟨fun _ _ => rfl⟩

section OfExcept

variable {m : Type → Type} [Monad m] [LawfulMonad m] [MonadExceptOf SchemaError m] [LawfulThrow m]
variable {α β : Type}

open MonadExcept (ofExcept)

theorem ofExcept_bind (x : Except SchemaError α) (f : α → Except SchemaError β) :
    (ofExcept (x >>= f) : m β) = ofExcept x >>= fun a => ofExcept (f a) := by
  cases x with
  | ok a => exact (pure_bind a fun a => (ofExcept (f a) : m β)).symm
  | error e => exact (LawfulThrow.throw_bind e fun a => (ofExcept (f a) : m β)).symm

end OfExcept

/-- A relation between the computations of two monads that composition keeps. Computations
that end with the same unresolved reference are related. -/
structure Comparison (m n : Type → Type) [Monad m] [Monad n] [LawfulMonad m] [LawfulMonad n]
    [MonadExceptOf SchemaError m] [MonadExceptOf SchemaError n] [LawfulThrow m] [LawfulThrow n]
    where
  Rel : {α β : Type} → (α → β → Prop) → m α → n β → Prop
  pure : ∀ {α β : Type} {V : α → β → Prop} {a : α} {b : β}, V a b → Rel V (pure a) (pure b)
  bind : ∀ {α β γ δ : Type} {V : α → β → Prop} {W : γ → δ → Prop} {x : m α} {y : n β}
    {f : α → m γ} {g : β → n δ},
    Rel V x y → (∀ a b, V a b → Rel W (f a) (g b)) → Rel W (x >>= f) (y >>= g)
  throw : ∀ {α β : Type} (V : α → β → Prop) (u : Unresolved),
    Rel V (throw (SchemaError.unresolved u)) (throw (SchemaError.unresolved u))

namespace Comparison

variable {m n : Type → Type} [Monad m] [Monad n] [LawfulMonad m] [LawfulMonad n]
variable [MonadExceptOf SchemaError m] [MonadExceptOf SchemaError n] [LawfulThrow m] [LawfulThrow n]
variable (R : Comparison m n) {α β γ δ : Type}

/-- Computations that need neither monad, compared where they are used. -/
def Lifted (V : α → β → Prop) (x : Except SchemaError α) (y : Except SchemaError β) : Prop :=
  R.Rel V (MonadExcept.ofExcept x : m α) (MonadExcept.ofExcept y : n β)

variable {R}

theorem Lifted.pure {V : α → β → Prop} {a : α} {b : β} (h : V a b) :
    R.Lifted V (Pure.pure a) (Pure.pure b) := R.pure h

theorem Lifted.throw (V : α → β → Prop) (u : Unresolved) :
    R.Lifted V (.error (.unresolved u)) (.error (.unresolved u)) := R.throw V u

theorem map {V : α → β → Prop} {W : γ → δ → Prop} {x : m α} {y : n β} {f : α → γ} {g : β → δ}
    (h : R.Rel V x y) (hf : ∀ a b, V a b → W (f a) (g b)) : R.Rel W (f <$> x) (g <$> y) := by
  rw [map_eq_pure_bind, map_eq_pure_bind]
  exact R.bind h fun a b hab => R.pure (hf a b hab)

theorem imp {V W : α → β → Prop} {x : m α} {y : n β} (h : R.Rel V x y)
    (hVW : ∀ a b, V a b → W a b) : R.Rel W x y := by
  have hmap := map (f := id) (g := id) h hVW
  rwa [id_map, id_map] at hmap

theorem mapM {V : γ → δ → Prop} {f : α → m γ} {g : β → n δ} {l : List α} {k : List β}
    (h : List.Forall₂ (fun a b => R.Rel V (f a) (g b)) l k) :
    R.Rel (List.Forall₂ V) (l.mapM f) (k.mapM g) := by
  induction h with
  | nil => exact R.pure .nil
  | cons hab _ ih =>
    rw [List.mapM_cons, List.mapM_cons]
    exact R.bind hab fun _ _ hc => R.bind ih fun _ _ hs => R.pure (.cons hc hs)

theorem Lifted.bind {V : α → β → Prop} {W : γ → δ → Prop} {x : Except SchemaError α}
    {y : Except SchemaError β} {f : α → Except SchemaError γ} {g : β → Except SchemaError δ}
    (h : R.Lifted V x y) (hf : ∀ a b, V a b → R.Lifted W (f a) (g b)) :
    R.Lifted W (x >>= f) (y >>= g) := by
  unfold Lifted
  rw [ofExcept_bind, ofExcept_bind]
  exact R.bind h hf

end Comparison

/-- Outcomes that agree: related values, or the same error. -/
inductive Agree {α β : Type} (V : α → β → Prop) :
    Except SchemaError α → Except SchemaError β → Prop
  | ok {a : α} {b : β} : V a b → Agree V (.ok a) (.ok b)
  | error (e : SchemaError) : Agree V (.error e) (.error e)

theorem Agree.refl {α : Type} {V : α → α → Prop} (hV : ∀ a, V a a) (x : Except SchemaError α) :
    Agree V x x := by
  cases x with
  | ok a => exact .ok (hV a)
  | error e => exact .error e

theorem Agree.imp {α β : Type} {V W : α → β → Prop} {x : Except SchemaError α}
    {y : Except SchemaError β} (h : Agree V x y) (hVW : ∀ a b, V a b → W a b) : Agree W x y := by
  cases h with
  | ok hab => exact .ok (hVW _ _ hab)
  | error e => exact .error e

theorem Agree.exists_ok {α β : Type} {V : α → β → Prop} {x : Except SchemaError α} {b : β}
    (h : Agree V x (.ok b)) : ∃ a, x = .ok a ∧ V a b := by
  cases h with
  | ok h => exact ⟨_, rfl, h⟩

theorem Agree.exists_of_ok {α β : Type} {V : α → β → Prop} {a : α} {y : Except SchemaError β}
    (h : Agree V (.ok a) y) : ∃ b, y = .ok b ∧ V a b := by
  cases h with
  | ok h => exact ⟨_, rfl, h⟩

def outcomes : Comparison (Except SchemaError) (Except SchemaError) where
  Rel := Agree
  pure := .ok
  throw _ u := .error _
  bind := by
    intro α β γ δ V W x y f g hxy hf
    cases hxy with
    | ok hab => exact hf _ _ hab
    | error e => exact .error e

theorem Agree.map_eq {α β γ : Type} {V : α → β → Prop} {x : Except SchemaError α}
    {y : Except SchemaError β} (h : Agree V x y) {f : α → γ} {g : β → γ}
    (hfg : ∀ a b, V a b → f a = g b) : f <$> x = g <$> y := by
  cases h with
  | ok hab => exact congrArg Except.ok (hfg _ _ hab)
  | error _ => rfl

theorem Agree.of_map_eq {α β γ : Type} {x : Except SchemaError α} {y : Except SchemaError β}
    {f : α → γ} {g : β → γ} (h : f <$> x = g <$> y) : Agree (fun a b => f a = g b) x y := by
  cases x <;> cases y
  · cases h
    exact .error _
  · cases h
  · cases h
  · exact .ok (Except.ok.inj h)

theorem Agree.eq {α : Type} {x y : Except SchemaError α} (h : Agree Eq x y) : x = y := by
  cases h with
  | ok h => rw [h]
  | error _ => rfl

end ResultSchema
