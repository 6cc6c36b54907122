import ResultSchema.Proofs.Clause.Deciding
import ResultSchema.Proofs.Comparison
import ResultSchema.Proofs.Resolve.Likeness

/-! # Clauses read alike

The typing and the label of a clause are put together from those of its operands, and in the end from
those of its field references and named expressions. If these are alike in two monads, so is the
whole.
-/

namespace ResultSchema

variable {m n : Type → Type} [Monad m] [Monad n] [LawfulMonad m] [LawfulMonad n]
variable [MonadExceptOf SchemaError m] [MonadExceptOf SchemaError n] [LawfulThrow m] [LawfulThrow n]
variable {R : Comparison m n} {D : LabelRelation}

/-- Descriptions that agree but for the label. -/
structure Description.Alike (D : LabelRelation) (d e : Description) : Prop where
  name : d.name = e.name
  displayName : D.Rel d.displayName e.displayName
  typing : d.typing = e.typing

namespace Aggregate

theorem label_alike (a : Aggregate) {operand operand' : Option String}
    (h : Option.Rel D.Rel operand operand') : D.Rel (a.label operand) (a.label operand') := by
  cases h with
  | none => exact D.refl _
  | some h =>
    cases a <;> first
      | exact D.append (D.refl _) h
      | exact D.append (D.append (D.refl _) h) (D.refl _)
      | exact D.refl _

theorem describe_alike (a : Aggregate) {operand operand' : Option String}
    (ho : Option.Rel D.Rel operand operand') {typing : m Typing} {typing' : n Typing}
    (ht : R.Rel Eq typing typing') :
    R.Rel (Description.Alike D) (a.describe operand typing) (a.describe operand' typing') := by
  have hlabel := a.label_alike ho
  unfold Aggregate.describe
  cases a.ownType? with
  | some _ => exact R.bind (R.pure rfl) fun _ _ ht => R.pure ⟨rfl, hlabel, ht⟩
  | none => exact R.bind ht fun _ _ ht => R.pure ⟨rfl, hlabel, ht⟩

end Aggregate

theorem Description.Alike.eq {d e : Description} (h : d.Alike .same e) : d = e := by
  obtain ⟨name, displayName, typing⟩ := d
  obtain ⟨rfl, hlabel, rfl⟩ := h
  cases hlabel
  rfl

namespace Clause

section Operands

variable {c : Clause} {args : List Clause}
variable {typingOf : Clause → m Typing} {typingOf' : Clause → n Typing}
variable {labelOf : Clause → m String} {labelOf' : Clause → n String}

theorem firstOf_alike (h : ∀ d ∈ args, R.Rel Eq (typingOf d) (typingOf' d)) :
    R.Rel Eq (firstOf typingOf args) (firstOf typingOf' args) := by
  cases args with
  | nil => exact R.pure rfl
  | cons first _ => exact h first List.mem_cons_self

theorem firstLabelBy_alike (h : ∀ d ∈ args, R.Rel D.Rel (labelOf d) (labelOf' d)) :
    R.Rel (Option.Rel D.Rel) (firstLabelBy labelOf args) (firstLabelBy labelOf' args) := by
  cases args with
  | nil => exact R.pure .none
  | cons first _ => exact Comparison.map (h first List.mem_cons_self) fun _ _ h => .some h

theorem callLabel_alike (op : String) {parts parts' : List String}
    (h : List.Forall₂ D.Rel parts parts') : D.Rel (callLabel op parts) (callLabel op parts') := by
  unfold callLabel
  rw [h.length_eq]
  split
  · exact D.intercalate _ h
  · exact D.append (D.append (D.refl _) (D.intercalate _ h)) (D.refl _)

theorem typingBy_alike {ofField : FieldRef → m Typing} {ofField' : FieldRef → n Typing}
    {ofNamed : String → m Typing} {ofNamed' : String → n Typing}
    (hf : ∀ f, c = field f → R.Rel Eq (ofField f) (ofField' f))
    (hn : ∀ name options, c = expression name options → R.Rel Eq (ofNamed name) (ofNamed' name))
    (h : ∀ d ∈ c.operands, R.Rel Eq (typingOf d) (typingOf' d)) :
    R.Rel Eq (c.typingBy ofField ofNamed typingOf) (c.typingBy ofField' ofNamed' typingOf') := by
  rw [typingBy_eq_decision, typingBy_eq_decision]
  have hfrom := decision_from c
  cases hc : c.decision with
  | known t => exact R.pure rfl
  | field f =>
    rw [hc] at hfrom
    exact hf f hfrom
  | named name =>
    rw [hc] at hfrom
    obtain ⟨options, hc⟩ := hfrom
    exact hn name options hc
  | operand p d =>
    rw [hc] at hfrom
    exact Comparison.map (h d hfrom) fun _ _ ht => congrArg p.apply ht

theorem aggregateBy_alike (a : Aggregate) (hl : ∀ d ∈ args, R.Rel D.Rel (labelOf d) (labelOf' d))
    (ht : ∀ d ∈ args, R.Rel Eq (typingOf d) (typingOf' d)) :
    R.Rel (Description.Alike D) (aggregateBy labelOf typingOf a args)
      (aggregateBy labelOf' typingOf' a args) :=
  R.bind (firstLabelBy_alike hl) fun _ _ ho => a.describe_alike ho (firstOf_alike ht)

theorem labelBy_alike {ofField : FieldRef → m String} {ofField' : FieldRef → n String}
    (hf : ∀ f, c = field f → R.Rel D.Rel (ofField f) (ofField' f))
    (hl : ∀ d ∈ c.operands, R.Rel D.Rel (labelOf d) (labelOf' d))
    (ht : ∀ d ∈ c.operands, R.Rel Eq (typingOf d) (typingOf' d)) :
    R.Rel D.Rel (c.labelBy ofField typingOf labelOf) (c.labelBy ofField' typingOf' labelOf') := by
  cases c with
  | value inner _ => exact hl inner (List.mem_singleton.mpr rfl)
  | field f => exact hf f rfl
  | call op args =>
    rw [labelBy, labelBy, callLabelBy, callLabelBy]
    cases Aggregate.ofOp? op with
    | some a => exact Comparison.map (aggregateBy_alike a hl ht) fun _ _ hd => hd.displayName
    | none =>
      have hlabels := Comparison.mapM (List.forall₂_same.mpr hl)
      exact Comparison.map hlabels fun _ _ h => callLabel_alike op h
  | _ => exact R.pure (D.refl _)

theorem describeBy_alike (hl : ∀ d ∈ c :: c.operands, R.Rel D.Rel (labelOf d) (labelOf' d))
    (ht : ∀ d ∈ c :: c.operands, R.Rel Eq (typingOf d) (typingOf' d)) :
    R.Rel (Description.Alike D) (c.describeBy labelOf typingOf)
      (c.describeBy labelOf' typingOf') := by
  have hexpression : R.Rel (Description.Alike D)
      (do
        let displayName ← labelOf c
        let typing ← typingOf c
        pure ({ name := "expression", displayName, typing } : Description))
      (do
        let displayName ← labelOf' c
        let typing ← typingOf' c
        pure ({ name := "expression", displayName, typing } : Description)) :=
    R.bind (hl c List.mem_cons_self) fun _ _ h =>
      R.bind (ht c List.mem_cons_self) fun _ _ ht => R.pure ⟨rfl, h, ht⟩
  cases c with
  | call op args =>
    unfold describeBy
    dsimp only
    cases Aggregate.ofOp? op with
    | some a =>
      exact aggregateBy_alike a (fun d hd => hl d (List.mem_cons_of_mem _ hd))
        fun d hd => ht d (List.mem_cons_of_mem _ hd)
    | none => exact hexpression
  | _ => exact hexpression

end Operands

theorem typing_alike {ofField : FieldRef → m Typing} {ofField' : FieldRef → n Typing}
    {ofNamed : String → m Typing} {ofNamed' : String → n Typing}
    (hf : ∀ f, R.Rel Eq (ofField f) (ofField' f))
    (hn : ∀ name, R.Rel Eq (ofNamed name) (ofNamed' name)) (c : Clause) :
    R.Rel Eq (c.typing ofField ofNamed) (c.typing ofField' ofNamed') := by
  induction c using operands_induction with
  | step c ih =>
    rw [typing_eq, typing_eq]
    exact typingBy_alike (fun f _ => hf f) (fun name _ _ => hn name) ih

variable {labelOf : FieldRef → m String} {labelOf' : FieldRef → n String}
variable {typingOf : Clause → m Typing} {typingOf' : Clause → n Typing}

theorem label_alike (hl : ∀ f, R.Rel D.Rel (labelOf f) (labelOf' f))
    (ht : ∀ c, R.Rel Eq (typingOf c) (typingOf' c)) (c : Clause) :
    R.Rel D.Rel (c.label labelOf typingOf) (c.label labelOf' typingOf') := by
  induction c using operands_induction with
  | step c ih =>
    rw [label_eq, label_eq]
    exact labelBy_alike (fun f _ => hl f) ih fun d _ => ht d

theorem describe_alike (hl : ∀ f, R.Rel D.Rel (labelOf f) (labelOf' f))
    (ht : ∀ c, R.Rel Eq (typingOf c) (typingOf' c)) (c : Clause) :
    R.Rel (Description.Alike D) (c.describe labelOf typingOf) (c.describe labelOf' typingOf') :=
  describeBy_alike (fun d _ => label_alike hl ht d) fun d _ => ht d

end Clause

end ResultSchema
