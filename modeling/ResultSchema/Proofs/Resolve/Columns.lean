import ResultSchema.Proofs.Resolve.Clauses
import ResultSchema.Proofs.Resolve.References
import ResultSchema.Resolve.Columns

/-! # Columns of alike scopes

Each column of a stage follows from answers to what it asks for. From alike answers to these alone
follow alike columns, so what alike scopes select and expose is alike, step by step from their
references up.
-/

namespace ResultSchema

namespace Stage

variable {m : Type → Type} [Monad m] {s : Stage} {typingOf : List String → Clause → m Typing}
variable {expanding : List String} {name : String}

theorem namedTypingBy_of_none (h : s.expressions.get? name = none) :
    s.namedTypingBy typingOf expanding name = pure {} := by
  rw [namedTypingBy, h]

theorem namedTypingBy_of_mem (h : name ∈ expanding) :
    s.namedTypingBy typingOf expanding name = pure {} := by
  unfold namedTypingBy
  cases s.expressions.get? name with
  | none => rfl
  | some e => exact if_pos h

theorem namedTypingBy_of_new {e : NamedExpression} (he : s.expressions.get? name = some e)
    (hnew : name ∉ expanding) : s.namedTypingBy typingOf expanding name =
      Typing.typeOnly <$> typingOf (name :: expanding) e.clause := by
  rw [namedTypingBy, he]
  exact if_neg hnew

end Stage

variable {m n : Type → Type} [Monad m] [Monad n] [LawfulMonad m] [LawfulMonad n]
variable [MonadExceptOf SchemaError m] [MonadExceptOf SchemaError n] [LawfulThrow m] [LawfulThrow n]
variable {R : Comparison m n} {D : LabelRelation}

section Answers

variable {labelOf : Clause → m String} {labelOf' : Clause → n String}
variable {typingOf : Clause → m Typing} {typingOf' : Clause → n Typing}
variable {columnOf : Clause → m Column} {columnOf' : Clause → n Column}
variable {aggregationOf : Nat → Aggregation → m Column}
variable {aggregationOf' : Nat → Aggregation → n Column}

theorem Aggregation.columnBy_alike {a : Aggregation} (index : Nat)
    (hl : ∀ c ∈ a.clause :: a.clause.operands, R.Rel D.Rel (labelOf c) (labelOf' c))
    (ht : ∀ c ∈ a.clause :: a.clause.operands, R.Rel Eq (typingOf c) (typingOf' c)) :
    R.Rel D.Like (a.columnBy labelOf typingOf index) (a.columnBy labelOf' typingOf' index) := by
  refine R.bind (Clause.describeBy_alike hl ht) ?_
  rintro ⟨name, label, typing⟩ ⟨_, label', _⟩ ⟨rfl, hlabel, rfl⟩
  refine R.pure ⟨a.displayName.getD label', ?_, rfl⟩
  show D.Rel (a.displayName.getD label) (a.displayName.getD label')
  cases a.displayName with
  | none => exact hlabel
  | some _ => exact D.refl _

theorem Breakout.columnBy_alike {b : Breakout}
    (h : R.Rel D.Like (columnOf b.clause) (columnOf' b.clause)) :
    R.Rel D.Like (b.columnBy columnOf) (b.columnBy columnOf') :=
  R.bind h fun _ _ hc => R.pure (hc.map
    (f := fun c => { c with source := some .breakout, ident := b.ident.or c.ident }) fun _ _ => rfl)

theorem Clause.listedBy_alike {c : Clause} (h : R.Rel D.Like (columnOf c) (columnOf' c)) :
    R.Rel D.Like (c.listedBy columnOf) (c.listedBy columnOf') :=
  R.bind h fun _ _ hc => R.pure (hc.map
    (f := fun c => { c with source := some .fields }) fun _ _ => rfl)

namespace Stage.Alike

variable {s t : Stage}

theorem namedTypingBy (h : s.Alike t) {typingOf : List String → Clause → m Typing}
    {typingOf' : List String → Clause → n Typing} {expanding : List String} {name : String}
    (ht : ∀ e, s.expressions.get? name = some e → name ∉ expanding →
      R.Rel Eq (typingOf (name :: expanding) e.clause) (typingOf' (name :: expanding) e.clause)) :
    R.Rel Eq (s.namedTypingBy typingOf expanding name) (t.namedTypingBy typingOf' expanding name) := by
  have hsame := congrFun h.expression name
  cases he : s.expressions.get? name with
  | none =>
    rw [namedTypingBy_of_none he, namedTypingBy_of_none (hsame ▸ he)]
    exact R.pure rfl
  | some e =>
    by_cases hm : name ∈ expanding
    · rw [namedTypingBy_of_mem hm, namedTypingBy_of_mem hm]
      exact R.pure rfl
    · rw [namedTypingBy_of_new he hm, namedTypingBy_of_new (hsame ▸ he) hm]
      exact Comparison.map (ht e he hm) fun _ _ h => congrArg Typing.typeOnly h

theorem expressionBy (h : s.Alike t) {name : String} {options : FieldOptions}
    (ht : ∀ e, s.expressions.get? name = some e →
      R.Rel Eq (typingOf e.clause) (typingOf' e.clause)) :
    R.Rel D.Like (s.expressionBy typingOf name options) (t.expressionBy typingOf' name options) := by
  unfold Stage.expressionBy
  rw [← h.expression]
  cases he : s.expressions.get? name with
  | none => exact R.throw _ _
  | some e =>
    refine R.bind (ht e he) ?_
    rintro typing _ rfl
    exact R.pure (.refl _)

theorem columnBy (h : s.Alike t) {fieldOf : FieldRef → m Column} {fieldOf' : FieldRef → n Column}
    {c : Clause} (hf : ∀ f, c = .field f → R.Rel D.Like (fieldOf f) (fieldOf' f))
    (ht : ∀ name options e, c = .expression name options → s.expressions.get? name = some e →
      R.Rel Eq (typingOf e.clause) (typingOf' e.clause))
    (ha : ∀ index a, c = .aggregation index → s.aggregations[index]? = some a →
      R.Rel D.Like (aggregationOf index a) (aggregationOf' index a)) :
    R.Rel D.Like (s.columnBy fieldOf typingOf aggregationOf c)
      (t.columnBy fieldOf' typingOf' aggregationOf' c) := by
  cases c with
  | field f => exact hf f rfl
  | expression name options => exact h.expressionBy fun e he => ht name options e rfl he
  | aggregation index =>
    simp only [Stage.columnBy, ← h.aggregations]
    cases hindex : s.aggregations[index]? with
    | none => exact R.throw _ _
    | some a => exact ha index a rfl hindex
  | _ => exact R.throw _ _

theorem columnsBy (h : s.Alike t)
    (hb : ∀ b ∈ s.breakouts, R.Rel D.Like (columnOf b.clause) (columnOf' b.clause))
    (ha : ∀ p ∈ s.aggregations.zipIdx,
      R.Rel D.Like (aggregationOf p.2 p.1) (aggregationOf' p.2 p.1))
    (hf : ∀ c ∈ s.fields, R.Rel D.Like (columnOf c) (columnOf' c)) :
    R.Rel (List.Forall₂ D.Like) (s.columnsBy columnOf aggregationOf)
      (t.columnsBy columnOf' aggregationOf') := by
  unfold Stage.columnsBy
  rw [← h.breakouts, ← h.aggregations, ← h.fields]
  have hb := Comparison.mapM (List.forall₂_same.mpr fun b hmem =>
    Breakout.columnBy_alike (hb b hmem))
  have ha := Comparison.mapM (List.forall₂_same.mpr ha)
  have hf := Comparison.mapM (List.forall₂_same.mpr fun c hmem => Clause.listedBy_alike (hf c hmem))
  refine R.bind hb fun _ _ hb => R.bind ha fun _ _ ha => R.bind hf fun _ _ hf => ?_
  exact R.pure (LabelRelation.Like.dedupe (List.rel_append (List.rel_append hb ha) hf))

theorem exposedBy (h : s.Alike t) {columns : m (List Column)} {columns' : n (List Column)}
    {source : Option (m (List Column))} {source' : Option (n (List Column))}
    (hc : R.Rel (List.Forall₂ D.Like) columns columns')
    (hsource : Option.Rel (R.Rel (List.Forall₂ D.Like)) source source') :
    R.Rel (List.Forall₂ D.Like) (s.exposedBy columns source) (t.exposedBy columns' source') := by
  refine R.bind hc fun columns columns' hc => ?_
  have hempty : columns.isEmpty = columns'.isEmpty := by cases hc <;> rfl
  rw [hempty, h.metadata]
  by_cases hselects : columns'.isEmpty
  · by_cases hdeclares : t.metadata.isEmpty
    · simp only [hselects, hdeclares, Bool.not_true, Bool.false_eq_true, if_false]
      cases hsource with
      | none => exact R.pure .nil
      | some hxy =>
        exact Comparison.map hxy fun _ _ hs => LabelRelation.Like.map_list hs fun _ _ => rfl
    · simp only [hselects, hdeclares, Bool.not_true, Bool.not_false, if_true]
      exact R.pure (List.forall₂_same.mpr fun c _ => .refl c)
  · simp only [hselects, Bool.not_false, if_true]
    exact R.pure hc

end Stage.Alike

end Answers

namespace Scope.Alike

variable {a : Scope m} {b : Scope n}

theorem fieldTyping (h : a.Alike R D b) (f : FieldRef) :
    R.Rel Eq (a.fieldTyping f) (b.fieldTyping f) := by
  refine Comparison.map (h.field f) ?_
  rintro c _ ⟨_, -, rfl⟩
  rfl

theorem namedTyping (h : a.Alike R D b) (left : Nat) (expanding : List String) (name : String) :
    R.Rel Eq (a.namedTyping left expanding name) (b.namedTyping left expanding name) := by
  -- On the number of names that may still be expanded.
  induction left generalizing expanding name with
  | zero => exact R.pure rfl
  | succ left ih =>
    exact h.stage.namedTypingBy fun e _ _ => e.clause.typing_alike h.fieldTyping (ih _)

theorem typing (h : a.Alike R D b) (c : Clause) : R.Rel Eq (a.typing c) (b.typing c) := by
  unfold Scope.typing
  rw [← h.stage.expressionCount]
  exact c.typing_alike h.fieldTyping (h.namedTyping _ _)

theorem label (h : a.Alike R D b) (c : Clause) : R.Rel D.Rel (a.label c) (b.label c) :=
  c.label_alike (fun f => Comparison.map (h.field f) fun _ _ hc => hc.longDisplayName) h.typing

theorem expression (h : a.Alike R D b) (name : String) (options : FieldOptions) :
    R.Rel D.Like (a.expression name options) (b.expression name options) :=
  h.stage.expressionBy fun e _ => h.typing e.clause

theorem aggregation (h : a.Alike R D b) (index : Nat) (aggregation : Aggregation) :
    R.Rel D.Like (a.aggregation index aggregation) (b.aggregation index aggregation) :=
  Aggregation.columnBy_alike index (fun c _ => h.label c) fun c _ => h.typing c

theorem column (h : a.Alike R D b) (c : Clause) : R.Rel D.Like (a.column c) (b.column c) :=
  h.stage.columnBy (fun f _ => h.field f) (fun _ _ e _ _ => h.typing e.clause)
    fun index aggregation _ _ => h.aggregation index aggregation

theorem columns (h : a.Alike R D b) : R.Rel (List.Forall₂ D.Like) a.columns b.columns :=
  h.stage.columnsBy (fun b _ => h.column b.clause) (fun p _ => h.aggregation p.2 p.1)
    fun c _ => h.column c

theorem exposed (h : a.Alike R D b) : R.Rel (List.Forall₂ D.Like) a.exposed b.exposed :=
  h.stage.exposedBy h.columns h.source

end Scope.Alike

end ResultSchema
