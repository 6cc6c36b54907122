import ResultSchema.Proofs.Clause.Deciding
import ResultSchema.Proofs.Resolve.Calls
import ResultSchema.Stage.Build

/-! # The type of a reference

A column of a named expression is typed with no name being expanded, a reference to it with its
own name being expanded already. On a cycle the two walk along different paths, but they end in
the same type: what is walked a second time is cut off with an unknown type, which a shifted date
hides and everything else passes on.
-/

namespace ResultSchema

namespace Stage

open Call (plain unexpanded)

variable {lexicon : Lexicon} {s : Stage} {expanding expanding' : List String} {name : String}

/-- Typing walks from a clause to the operand that decides, or to the clause of a name that is not
being expanded yet. What follows along the walk holds of every clause. -/
@[elab_as_elim]
theorem expanding_induction {P : List String → Clause → Prop} (expanding : List String) (c : Clause)
    (step : ∀ expanding c, (∀ p d, c.decision = .operand p d → P expanding d) →
      (∀ name e, s.expressions.get? name = some e → name ∉ expanding →
        P (name :: expanding) e.clause) → P expanding c) : P expanding c :=
  step expanding c (fun _ d _ => expanding_induction expanding d step)
    fun name e _ _ => expanding_induction (name :: expanding) e.clause step
termination_by ((unexpanded s expanding).length, sizeOf c)
decreasing_by
  · rename_i h
    exact Prod.Lex.right _ (Clause.sizeOf_lt_of_mem_operands (Clause.mem_operands_of_decision h))
  · rename_i he hnew
    refine Prod.Lex.left _ _ ?_
    rw [Call.length_unexpanded_cons (OrderedMap.mem_keys_of_get? he) hnew]
    exact Nat.lt_succ_self _

/-- The type of a clause while the named expressions in `expanding` are being typed. -/
def typeWithin (lexicon : Lexicon) (s : Stage) (expanding : List String) (c : Clause) :
    Except SchemaError Typing :=
  Typing.typeOnly <$> plain lexicon (.typing s expanding c)

def namedType (lexicon : Lexicon) (s : Stage) : List String → String → Except SchemaError Typing :=
  s.namedTypingBy fun expanding c => plain lexicon (.typing s expanding c)

theorem namedType_of_none (h : s.expressions.get? name = none) :
    s.namedType lexicon expanding name = .ok {} := namedTypingBy_of_none h

theorem namedType_of_mem (h : name ∈ expanding) : s.namedType lexicon expanding name = .ok {} :=
  namedTypingBy_of_mem h

theorem namedType_of_get? {e : NamedExpression} (he : s.expressions.get? name = some e)
    (hnew : name ∉ expanding) :
    s.namedType lexicon expanding name = s.typeWithin lexicon (name :: expanding) e.clause :=
  namedTypingBy_of_new he hnew

theorem typeWithin_eq_decision (expanding : List String) (c : Clause) :
    s.typeWithin lexicon expanding c = match c.decision with
      | .known t => .ok t.typeOnly
      | .field f => Typing.typeOnly <$> (s.scope lexicon).fieldTyping f
      | .named name => s.namedType lexicon expanding name
      | .operand p d => p.applyType <$> s.typeWithin lexicon expanding d := by
  unfold typeWithin
  rw [← Call.rule_plain]
  show Typing.typeOnly <$> Clause.typingBy _ _ _ c = _
  rw [Clause.typingBy_eq_decision]
  cases c.decision with
  | known t => rfl
  | field f => rfl
  | named name =>
    show Typing.typeOnly <$> s.namedType lexicon expanding name = s.namedType lexicon expanding name
    cases he : s.expressions.get? name with
    | none =>
      rw [namedType_of_none he]
      rfl
    | some e =>
      by_cases hm : name ∈ expanding
      · rw [namedType_of_mem hm]
        rfl
      · rw [namedType_of_get? he hm, typeWithin]
        cases plain lexicon (.typing s (name :: expanding) e.clause) <;> rfl
  | operand p d =>
    simp only [Decision.typing]
    cases plain lexicon (.typing s expanding d) with
    | error e => rfl
    | ok t => exact congrArg Except.ok (p.typeOnly_apply t)

/-- While more names are being expanded a walk may be cut off earlier. It then has no error, and a
type that was unknown stays unknown. -/
theorem typeWithin_of_subset (hsub : ∀ name ∈ expanding, name ∈ expanding') {c : Clause}
    {t : Typing} (h : s.typeWithin lexicon expanding c = .ok t) :
    ∃ u, s.typeWithin lexicon expanding' c = .ok u ∧ (t = {} → u = {}) := by
  induction expanding, c using expanding_induction (s := s) generalizing expanding' t with
  | step expanding c hoperand hnamed =>
    rw [typeWithin_eq_decision] at h ⊢
    cases hc : c.decision with
    | known t' =>
      rw [hc] at h
      exact ⟨t, h, id⟩
    | field f =>
      rw [hc] at h
      exact ⟨t, h, id⟩
    | named name =>
      rw [hc] at h
      dsimp only at h ⊢
      cases he : s.expressions.get? name with
      | none => exact ⟨{}, namedType_of_none he, fun _ => rfl⟩
      | some e =>
        by_cases hm : name ∈ expanding'
        · exact ⟨{}, namedType_of_mem hm, fun _ => rfl⟩
        · have hnew : name ∉ expanding := fun h => hm (hsub name h)
          rw [namedType_of_get? he hnew] at h
          rw [namedType_of_get? he hm]
          refine hnamed name e he hnew (fun other hother => ?_) h
          exact List.mem_cons.mpr ((List.mem_cons.mp hother).imp_right (hsub other))
    | operand p d =>
      rw [hc] at h
      obtain ⟨t', ht', rfl⟩ := map_eq_ok_iff.mp h
      obtain ⟨u, hu, hunknown⟩ := hoperand p d hc hsub ht'
      refine ⟨p.applyType u, map_eq_ok_iff.mpr ⟨u, hu, rfl⟩, fun h => ?_⟩
      cases p with
      | zone => cases h
      | whole => exact hunknown h
      | type => exact hunknown h

/-- While one more name is being expanded a walk is the same, or it comes to that name. There it is
cut off with an unknown type, where the other walk goes on with the clause of the name. -/
theorem typeWithin_insert {e : NamedExpression} (he : s.expressions.get? name = some e)
    (hsame : ∀ other, other ∈ expanding' ↔ other = name ∨ other ∈ expanding)
    (hnew : name ∉ expanding) (c : Clause) :
    s.typeWithin lexicon expanding' c = s.typeWithin lexicon expanding c ∨
      ∃ (p : Passage) (further : List String),
        s.typeWithin lexicon expanding' c = .ok (p.applyType {}) ∧
        s.typeWithin lexicon expanding c =
          p.applyType <$> s.typeWithin lexicon (name :: further) e.clause := by
  induction expanding, c using expanding_induction (s := s) generalizing expanding' with
  | step expanding c hoperand hnamed =>
    rw [typeWithin_eq_decision, typeWithin_eq_decision expanding]
    cases hc : c.decision with
    | known t => exact .inl rfl
    | field f => exact .inl rfl
    | named other =>
      dsimp only
      cases hother : s.expressions.get? other with
      | none =>
        left
        rw [namedType_of_none hother, namedType_of_none hother]
      | some e' =>
        by_cases hname : other = name
        · subst hname
          cases he.symm.trans hother
          right
          refine ⟨.whole, expanding, namedType_of_mem ((hsame other).mpr (.inl rfl)), ?_⟩
          rw [namedType_of_get? he hnew]
          exact (id_map _).symm
        by_cases hm : other ∈ expanding
        · left
          rw [namedType_of_mem hm, namedType_of_mem ((hsame other).mpr (.inr hm))]
        · have hm' : other ∉ expanding' := fun h => ((hsame other).mp h).elim hname hm
          rw [namedType_of_get? hother hm, namedType_of_get? hother hm']
          refine hnamed other e' hother hm (fun another => ?_) ?_
          · rw [List.mem_cons, List.mem_cons, hsame]
            exact or_left_comm
          · exact fun h => (List.mem_cons.mp h).elim (Ne.symm hname) hnew
    | operand p d =>
      dsimp only
      rcases hoperand p d hc hsame hnew with heq | ⟨q, further, hcut, hfurther⟩
      · left
        rw [heq]
      · right
        obtain ⟨r, hr⟩ := Passage.exists_applyType_comp p q
        refine ⟨r, further, ?_, ?_⟩
        · rw [hcut, ← hr]
          rfl
        · rw [hfurther]
          cases s.typeWithin lexicon (name :: further) e.clause with
          | error e => rfl
          | ok t => exact congrArg Except.ok (hr t)

theorem typeWithin_own {e : NamedExpression} (he : s.expressions.get? name = some e) :
    s.typeWithin lexicon [name] e.clause = s.typeWithin lexicon [] e.clause := by
  have hsame : ∀ other, other ∈ [name] ↔ other = name ∨ other ∈ ([] : List String) := by simp
  rcases typeWithin_insert he hsame List.not_mem_nil e.clause with heq | ⟨p, further, hcut, hfurther⟩
  · exact heq
  · -- The walk that goes on is cut off at the name too, or before it.
    have hsub : ∀ other ∈ [name], other ∈ name :: further := by simp
    obtain ⟨u, hu, hunknown⟩ := typeWithin_of_subset hsub hcut
    rw [hfurther, hcut, hu]
    cases p with
    | zone => rfl
    | whole => exact congrArg Except.ok (hunknown rfl).symm
    | type => exact congrArg Except.ok (hunknown rfl).symm

/-- A reference that takes its type from elsewhere: to a field, or to a declared expression without
a bucket. -/
inductive Refers (s : Stage) : Clause → Prop
  | field (f : FieldRef) : s.Refers (.field f)
  | expression {name : String} {options : FieldOptions} : name ∈ s.expressions.keys →
      options.temporalUnit = none → s.Refers (.expression name options)

theorem typeWithin_nil (c : Clause) :
    s.typeWithin lexicon [] c = Typing.typeOnly <$> (s.scope lexicon).typing c :=
  congrArg (Typing.typeOnly <$> ·) (Call.plain_typing c)

theorem typing_expression {e : NamedExpression} {options : FieldOptions}
    (he : s.expressions.get? name = some e) (hunit : options.temporalUnit = none) :
    Typing.typeOnly <$> (s.scope lexicon).typing (.expression name options) =
      Typing.typeOnly <$> (s.scope lexicon).typing e.clause := by
  have hdecision : (Clause.expression name options).decision = .named name := by
    simp only [Clause.decision, hunit]
  calc Typing.typeOnly <$> (s.scope lexicon).typing (.expression name options)
    _ = s.typeWithin lexicon [] (.expression name options) := (typeWithin_nil _).symm
    _ = s.typeWithin lexicon [name] e.clause := by
      rw [typeWithin_eq_decision, hdecision]
      exact namedType_of_get? he List.not_mem_nil
    _ = s.typeWithin lexicon [] e.clause := typeWithin_own he
    _ = Typing.typeOnly <$> (s.scope lexicon).typing e.clause := typeWithin_nil _

theorem Refers.typeOnly_column {x : Clause} (h : s.Refers x) :
    (fun c => (Typing.ofColumn c).typeOnly) <$> (s.scope lexicon).column x =
      Typing.typeOnly <$> (s.scope lexicon).typing x := by
  cases h with
  | field f =>
    show _ = Typing.typeOnly <$> Typing.ofColumn <$> (s.scope lexicon).field f
    rw [← comp_map]
    rfl
  | @expression name options hname hunit =>
    obtain ⟨e, he⟩ := Option.isSome_iff_exists.mp (OrderedMap.isSome_get?_iff.mpr hname)
    rw [typing_expression he hunit]
    show _ <$> (s.scope lexicon).stage.expressionBy (s.scope lexicon).typing name options = _
    rw [scope_stage, expressionBy, he]
    dsimp only
    cases (s.scope lexicon).typing e.clause <;> rfl

theorem ofColumn_aggregation (scope : Scope (Except SchemaError)) (index : Nat) (a : Aggregation) :
    Typing.ofColumn <$> scope.aggregation index a = (fun d => d.typing.typeOnly) <$>
      a.clause.describe (fun f => Column.longDisplayName <$> scope.field f) scope.typing := by
  show Typing.ofColumn <$> (a.clause.describe _ scope.typing >>= _) = _
  cases a.clause.describe (fun f => Column.longDisplayName <$> scope.field f) scope.typing <;> rfl

theorem typing_describe {labelOf : FieldRef → Except SchemaError String}
    {typingOf : Clause → Except SchemaError Typing} {op : Aggregate} (hop : op.ownType? = none)
    (x : Clause) (rest : List Clause) :
    Description.typing <$> (Clause.call op.op (x :: rest)).describe labelOf typingOf =
      x.label labelOf typingOf >>= fun _ => typingOf x := by
  have hname : Aggregate.ofOp? op.op = some op := by cases op <;> decide
  simp only [Clause.describe, Clause.describeBy, hname, Clause.aggregateBy, Aggregate.describe, hop,
    Clause.firstLabelBy, Clause.firstOf]
  cases x.label labelOf typingOf with
  | error e => rfl
  | ok operand => cases typingOf x <;> rfl

theorem Refers.ofColumn_aggregation {x : Clause} (h : s.Refers x) {op : Aggregate}
    (hop : op.ownType? = none) {a : Aggregation} {rest : List Clause}
    (ha : a.clause = .call op.op (x :: rest)) (index : Nat) :
    Typing.ofColumn <$> (s.scope lexicon).aggregation index a =
      Typing.typeOnly <$> (s.scope lexicon).typing x := by
  rw [Stage.ofColumn_aggregation, ha]
  show (Typing.typeOnly ∘ Description.typing) <$> _ = _
  rw [comp_map, typing_describe hop]
  cases h with
  | field f =>
    -- A field without a label has no typing either.
    show _ <$> (Column.longDisplayName <$> (s.scope lexicon).field f >>= fun _ =>
        Typing.ofColumn <$> (s.scope lexicon).field f) =
      Typing.typeOnly <$> Typing.ofColumn <$> (s.scope lexicon).field f
    cases (s.scope lexicon).field f <;> rfl
  | expression hname hunit => rfl

/-- The three ways of typing a reference agree: its own typing, the column that it selects, and the
aggregates that take their type from it. They fail with the same error, or they give the same type,
which for an aggregate has no bucket and no time zone. -/
theorem reference_typings_agree (lexicon : Lexicon) {s : Stage} {x : Clause} (h : s.Refers x) :
    Agree (fun t c => t.typeOnly = (Typing.ofColumn c).typeOnly) ((s.scope lexicon).typing x)
        ((s.scope lexicon).column x) ∧
      ∀ op ∈ [Aggregate.sum, .cumSum, .sumWhere, .min, .max], ∀ (index : Nat) (a : Aggregation)
        (rest : List Clause), a.clause = .call op.op (x :: rest) →
        Agree (fun t c => t.typeOnly = Typing.ofColumn c) ((s.scope lexicon).typing x)
          ((s.scope lexicon).aggregation index a) := by
  refine ⟨.of_map_eq h.typeOnly_column.symm, fun op hop index a rest ha => ?_⟩
  have htype : op.ownType? = none := by
    simp only [List.mem_cons, List.not_mem_nil, or_false] at hop
    rcases hop with rfl | rfl | rfl | rfl | rfl <;> rfl
  exact .of_map_eq (h.ofColumn_aggregation htype ha index).symm

def circularDates : Stage :=
  ((ofTable 1).withExpression "due" (.call "datetime-add"
      [.expression "start" {}, .literal (.int 1), .literal (.string "day")])).withExpression
    "start" (.call "coalesce" [.expression "due" {}, .literal .null])

theorem reference_typings_agree_circularDates :
    circularDates.Refers (.expression "start" {}) ∧
      (circularDates.scope ⟨fun _ => none, id⟩).typing (.expression "start" {}) =
        .ok { baseType := .dateTime } ∧
      (∃ c, (circularDates.scope ⟨fun _ => none, id⟩).column (.expression "start" {}) = .ok c ∧
        Typing.ofType .dateTime = (Typing.ofColumn c).typeOnly) ∧
      ∃ c, (circularDates.scope ⟨fun _ => none, id⟩).aggregation 0
          { clause := .call "max" [.expression "start" {}] } = .ok c ∧
        Typing.ofType .dateTime = Typing.ofColumn c := by
  have hrefers : circularDates.Refers (.expression "start" {}) := .expression (by decide) rfl
  have htyping : (circularDates.scope ⟨fun _ => none, id⟩).typing (.expression "start" {}) =
      .ok { baseType := .dateTime } := by decide +kernel
  obtain ⟨hcolumn, hmax⟩ := reference_typings_agree ⟨fun _ => none, id⟩ hrefers
  have hmax := hmax .max (by decide) 0 { clause := .call "max" [.expression "start" {}] } [] rfl
  rw [htyping] at hcolumn hmax
  exact ⟨hrefers, htyping, hcolumn.exists_of_ok, hmax.exists_of_ok⟩

end Stage

end ResultSchema
