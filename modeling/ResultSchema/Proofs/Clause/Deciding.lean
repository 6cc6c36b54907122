import ResultSchema.Proofs.Clause.Operands
import ResultSchema.Proofs.Outcome

/-! # What decides the typing of a clause

The typing of a clause is known at once, or it is that of a field or of a named expression, or it
follows from the typing of one operand. So typing walks down a single path, whatever else the
clause holds.
-/

namespace ResultSchema

/-- What a clause takes over from the typing of the operand that decides its own. -/
inductive Passage
  | whole | type | zone
  deriving DecidableEq, Repr

namespace Passage

/-- The typing of the clause around an operand. -/
def apply : Passage → Typing → Typing
  | whole, t => t
  | type, t => t.typeOnly
  | zone, t => { baseType := .dateTime, convertedTimezone := t.convertedTimezone }

/-- The type of the clause around an operand: that of the operand, but for a shifted date. -/
def applyType : Passage → Typing → Typing
  | zone, _ => .ofType .dateTime
  | _, t => t

theorem typeOnly_apply (p : Passage) (t : Typing) :
    (p.apply t).typeOnly = p.applyType t.typeOnly := by
  cases p <;> rfl

theorem exists_applyType_comp (p q : Passage) :
    ∃ r : Passage, ∀ t, p.applyType (q.applyType t) = r.applyType t := by
  cases p with
  | zone => exact ⟨zone, fun _ => rfl⟩
  | whole => exact ⟨q, fun _ => rfl⟩
  | type => exact ⟨q, fun _ => rfl⟩

end Passage

/-- What decides the typing of a clause. -/
inductive Decision
  | known (t : Typing)
  | field (f : FieldRef)
  | named (name : String)
  | operand (p : Passage) (d : Clause)

namespace Decision

/-- The first of some clauses decides, if there is one. -/
def ofFirst (p : Passage) : List Clause → Decision
  | [] => known (p.apply {})
  | d :: _ => operand p d

def typing {m : Type → Type} [Monad m] (ofField : FieldRef → m Typing)
    (ofNamed : String → m Typing) (typingOf : Clause → m Typing) : Decision → m Typing
  | known t => pure t
  | field f => ofField f
  | named name => ofNamed name
  | operand p d => p.apply <$> typingOf d

theorem typing_ofFirst {m : Type → Type} [Monad m] [LawfulMonad m] {ofField : FieldRef → m Typing}
    {ofNamed : String → m Typing} {typingOf : Clause → m Typing} (p : Passage)
    (args : List Clause) : (ofFirst p args).typing ofField ofNamed typingOf =
      p.apply <$> Clause.firstOf typingOf args := by
  cases args with
  | nil => exact (map_pure p.apply _).symm
  | cons d rest => rfl

/-- What decides the typing of a clause stands in the clause. -/
def From (c : Clause) : Decision → Prop
  | known _ => True
  | field f => c = .field f
  | named name => ∃ options, c = .expression name options
  | operand _ d => d ∈ c.operands

theorem from_ofFirst {c : Clause} (p : Passage) {args : List Clause} (h : args ⊆ c.operands) :
    (ofFirst p args).From c := by
  cases args with
  | nil => trivial
  | cons d rest => exact h List.mem_cons_self

end Decision

namespace Clause

def decision : Clause → Decision
  | literal l => .known (.ofType l.type)
  | value inner hint => match hint.baseType with
    | some t => .known { baseType := t, effectiveType := hint.effectiveType }
    | none => .operand .whole inner
  | field f => .field f
  | expression name options => match options.temporalUnit with
    | some _ => .known (.ofType .dateTime)
    | none => .named name
  | aggregation _ => .known {}
  | interval _ _ => .known {}
  | case branches _ => .ofFirst .whole ((branches.map (·.2)).dropWhile isNull)
  | call op args =>
    if op = "coalesce" then .ofFirst .type args
    else if op = "length" then .known (.ofType .bigInteger)
    else if op = "convert-timezone" then
      .known { baseType := .dateTime, convertedTimezone := Operator.zone? args }
    else if Operator.shiftsDate op args then .ofFirst .zone args
    else .known (.ofType (Operator.resultType op))

theorem decision_from (c : Clause) : c.decision.From c := by
  cases c with
  | value inner hint =>
    rw [decision]
    cases hint.baseType with
    | none => exact List.mem_singleton.mpr rfl
    | some t => trivial
  | field f => rfl
  | expression name options =>
    rw [decision]
    cases options.temporalUnit with
    | none => exact ⟨options, rfl⟩
    | some unit => trivial
  | case branches fallback => exact Decision.from_ofFirst _ (List.dropWhile_sublist _).subset
  | call op args =>
    rw [decision]
    split
    · exact Decision.from_ofFirst _ fun d hd => hd
    split
    · trivial
    split
    · trivial
    split
    · exact Decision.from_ofFirst _ fun d hd => hd
    · trivial
  | _ => trivial

theorem mem_operands_of_decision {c d : Clause} {p : Passage} (h : c.decision = .operand p d) :
    d ∈ c.operands := by
  have hfrom := decision_from c
  rwa [h] at hfrom

variable {m : Type → Type} [Monad m] [LawfulMonad m]
variable (ofField : FieldRef → m Typing) (ofNamed : String → m Typing)

theorem typingBy_eq_decision (typingOf : Clause → m Typing) (c : Clause) :
    c.typingBy ofField ofNamed typingOf = c.decision.typing ofField ofNamed typingOf := by
  cases c with
  | value inner hint =>
    rw [typingBy, typingOver, decision]
    cases hint.baseType with
    | none => exact (id_map (typingOf inner)).symm
    | some t => rfl
  | expression name options =>
    rw [typingBy, typingOver, decision]
    cases options.temporalUnit <;> rfl
  | case branches fallback =>
    rw [decision, Decision.typing_ofFirst]
    exact (id_map _).symm
  | call op args =>
    rw [typingBy, typingOver, decision]
    split
    · rw [Decision.typing_ofFirst]
      rfl
    split
    · rfl
    split
    · rfl
    split
    · rw [Decision.typing_ofFirst, map_eq_pure_bind]
      rfl
    · rfl
  | _ => rfl

theorem typing_eq_decision (c : Clause) : c.typing ofField ofNamed =
    c.decision.typing ofField ofNamed (typing ofField ofNamed) := by
  rw [typing_eq, typingBy_eq_decision]

/-- What follows for a clause from the operand that decides its typing holds of every clause. -/
@[elab_as_elim]
theorem decision_induction {P : Clause → Prop} (c : Clause)
    (step : ∀ c : Clause, (∀ p d, c.decision = .operand p d → P d) → P c) : P c :=
  operands_induction c fun c ih => step c fun _ d h => ih d (mem_operands_of_decision h)

theorem typingBy_failsOnly {P : SchemaError → Prop} {c : Clause}
    {ofField : FieldRef → Except SchemaError Typing} {ofNamed : String → Except SchemaError Typing}
    {typingOf : Clause → Except SchemaError Typing}
    (hf : ∀ f, c = field f → FailsOnly P (ofField f))
    (hn : ∀ name options, c = expression name options → FailsOnly P (ofNamed name))
    (h : ∀ d ∈ c.operands, FailsOnly P (typingOf d)) :
    FailsOnly P (c.typingBy ofField ofNamed typingOf) := by
  rw [typingBy_eq_decision]
  have hfrom := decision_from c
  cases hc : c.decision with
  | known t => exact .ok t
  | field f =>
    rw [hc] at hfrom
    exact hf f hfrom
  | named name =>
    rw [hc] at hfrom
    obtain ⟨options, hc⟩ := hfrom
    exact hn name options hc
  | operand p d =>
    rw [hc] at hfrom
    exact (h d hfrom).map _

end Clause

end ResultSchema
