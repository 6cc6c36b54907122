import ResultSchema.Clause.Description

/-! # Clauses and their operands

The typing and the label of a clause follow from those of its operands, one level down.
-/

namespace ResultSchema.Clause

/-- The clauses that a clause is put together from, without the conditions of a case. -/
def operands : Clause → List Clause
  | value inner _ => [inner]
  | case branches _ => branches.map (·.2)
  | call _ args => args
  | _ => []

/-- The operands of which the first decides the typing: a case has the type of a result that is not
null. -/
def deciding : Clause → List Clause
  | case branches _ => (branches.map (·.2)).dropWhile isNull
  | c => c.operands

theorem sizeOf_lt_of_mem_operands {c d : Clause} (h : d ∈ c.operands) : sizeOf d < sizeOf c := by
  cases c with
  | value inner hint =>
    cases List.mem_singleton.mp h
    simp only [value.sizeOf_spec]
    omega
  | case branches fallback =>
    obtain ⟨⟨condition, result⟩, hb, rfl⟩ := List.mem_map.mp h
    have hlt := List.sizeOf_lt_of_mem hb
    simp only [Prod.mk.sizeOf_spec, case.sizeOf_spec] at hlt ⊢
    omega
  | call op args =>
    have hlt : sizeOf d < sizeOf args := List.sizeOf_lt_of_mem h
    simp only [call.sizeOf_spec]
    omega
  | _ => cases h

@[elab_as_elim]
theorem operands_induction {P : Clause → Prop} (c : Clause)
    (step : ∀ c : Clause, (∀ d ∈ c.operands, P d) → P c) : P c :=
  step c fun d _ => operands_induction d step
termination_by sizeOf c
decreasing_by
  rename_i h
  exact sizeOf_lt_of_mem_operands h

section Definitions

variable {m : Type → Type} [Monad m]

/-- The typing of a clause, given those of its operands. -/
def typingBy (ofField : FieldRef → m Typing) (ofNamed : String → m Typing)
    (typingOf : Clause → m Typing) (c : Clause) : m Typing :=
  typingOver ofField ofNamed (firstOf typingOf c.deciding) c

def labelBy (ofField : FieldRef → m String) (typingOf : Clause → m Typing)
    (labelOf : Clause → m String) : Clause → m String
  | value inner _ => labelOf inner
  | field f => ofField f
  | expression name _ => pure name
  | call op args =>
    callLabelBy op (fun a => aggregateBy labelOf typingOf a args) (args.mapM labelOf)
  | c => pure c.display

end Definitions

section Unfolding

variable {m : Type → Type} [Monad m]
variable (ofField : FieldRef → m Typing) (ofNamed : String → m Typing)
variable (labelOf : FieldRef → m String) (typingOf : Clause → m Typing)

theorem branchTyping_eq (branches : List (Clause × Clause)) :
    branchTyping ofField ofNamed branches =
      firstOf (typing ofField ofNamed) ((branches.map (·.2)).dropWhile isNull) := by
  induction branches with
  | nil => rfl
  | cons branch rest ih =>
    obtain ⟨condition, result⟩ := branch
    rw [branchTyping, List.map_cons, List.dropWhile_cons]
    split
    · exact ih
    · rfl

theorem firstTyping_eq (args : List Clause) :
    firstTyping ofField ofNamed args = firstOf (typing ofField ofNamed) args := by
  cases args <;> rfl

theorem typing_eq (c : Clause) :
    c.typing ofField ofNamed = c.typingBy ofField ofNamed (typing ofField ofNamed) := by
  cases c with
  | case branches fallback =>
    exact congrArg (typingOver ofField ofNamed · _) (branchTyping_eq ofField ofNamed branches)
  | call op args =>
    exact congrArg (typingOver ofField ofNamed · _) (firstTyping_eq ofField ofNamed args)
  | _ => rfl

theorem firstLabel_eq (args : List Clause) :
    firstLabel labelOf typingOf args = firstLabelBy (label labelOf typingOf) args := by
  cases args <;> rfl

variable [LawfulMonad m]

theorem labels_eq (args : List Clause) :
    labels labelOf typingOf args = args.mapM (label labelOf typingOf) := by
  induction args with
  | nil => rfl
  | cons c rest ih => rw [labels, List.mapM_cons, ih]

theorem label_eq (c : Clause) :
    c.label labelOf typingOf = c.labelBy labelOf typingOf (label labelOf typingOf) := by
  cases c with
  | call op args =>
    rw [label, labelBy, labels_eq, firstLabel_eq]
    rfl
  | _ => rfl

end Unfolding

end ResultSchema.Clause
