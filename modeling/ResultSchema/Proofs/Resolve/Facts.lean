import ResultSchema.Proofs.Clause.Deciding
import ResultSchema.Proofs.Resolve.Selected
import ResultSchema.Stage.Build

/-! # Buckets and time zones do not pass names

Beside its type a clause may have a bucket and a time zone, which come from the operand that
decides its typing. A reference to a named expression has neither. So the type of a clause depends
on the named expressions of its stage, and its bucket and time zone do not.
-/

namespace ResultSchema

/-- The bucket and the time zone without the type. -/
def Typing.factsOnly (t : Typing) : Typing :=
  { unit := t.unit, convertedTimezone := t.convertedTimezone }

theorem Typing.factsOnly_eq_iff {t u : Typing} : t.factsOnly = u.factsOnly ↔
    t.convertedTimezone = u.convertedTimezone ∧ t.unit = u.unit := by
  simp only [Typing.factsOnly, Typing.mk.injEq, true_and, and_comm]

theorem Passage.factsOnly_apply (p : Passage) {t u : Typing} (h : t.factsOnly = u.factsOnly) :
    (p.apply t).factsOnly = (p.apply u).factsOnly := by
  cases p with
  | whole => exact h
  | type => rfl
  | zone => exact Typing.factsOnly_eq_iff.mpr ⟨(Typing.factsOnly_eq_iff.mp h).1, rfl⟩

namespace Clause

/-- Where named expressions have neither bucket nor time zone, it does not matter what they are. -/
theorem factsOnly_typing_eq {ofField : FieldRef → Except SchemaError Typing}
    {ofNamed ofNamed' : String → Except SchemaError Typing}
    (hnamed : ∀ name t, ofNamed name = .ok t → t.factsOnly = {})
    (hnamed' : ∀ name t, ofNamed' name = .ok t → t.factsOnly = {}) {c : Clause} {t u : Typing}
    (ht : c.typing ofField ofNamed = .ok t) (hu : c.typing ofField ofNamed' = .ok u) :
    t.factsOnly = u.factsOnly := by
  induction c using decision_induction generalizing t u with
  | step c ih =>
    rw [typing_eq_decision] at ht hu
    cases hc : c.decision with
    | known known =>
      rw [hc] at ht hu
      cases ht
      cases hu
      rfl
    | field f =>
      rw [hc] at ht hu
      cases ht.symm.trans hu
      rfl
    | named name =>
      rw [hc] at ht hu
      rw [hnamed name t ht, hnamed' name u hu]
    | operand p d =>
      rw [hc] at ht hu
      obtain ⟨t', ht', rfl⟩ := map_eq_ok_iff.mp ht
      obtain ⟨u', hu', rfl⟩ := map_eq_ok_iff.mp hu
      exact p.factsOnly_apply (ih p d hc ht' hu')

end Clause

theorem Scope.factsOnly_namedTyping {scope : Scope (Except SchemaError)} {left : Nat}
    {expanding : List String} {name : String} {t : Typing}
    (h : scope.namedTyping left expanding name = .ok t) : t.factsOnly = {} := by
  cases left with
  | zero =>
    cases h
    rfl
  | succ left =>
    rw [namedTyping, Stage.namedTypingBy] at h
    split at h
    · cases h
      rfl
    split at h
    · cases h
      rfl
    · obtain ⟨t, -, rfl⟩ := map_eq_ok_iff.mp h
      rfl

namespace Stage

def withExpressions (s : Stage) (expressions : OrderedMap NamedExpression) : Stage :=
  { s with expressions }

variable {lexicon : Lexicon} {s : Stage} {expressions : OrderedMap NamedExpression}

theorem fieldTyping_withExpressions :
    ((s.withExpressions expressions).scope lexicon).fieldTyping =
      (s.scope lexicon).fieldTyping := by
  rw [scope_eq, scope_eq lexicon s, joinsInSight_eq, joinsInSight_eq s]
  rfl

/-- Two stages that differ in their named expressions only give a clause the same time zone and the
same bucket wherever it has a typing at both. -/
theorem facts_eq_withExpressions (lexicon : Lexicon) (s : Stage)
    (expressions : OrderedMap NamedExpression) (c : Clause) {t u : Typing}
    (ht : (s.scope lexicon).typing c = .ok t)
    (hu : ((s.withExpressions expressions).scope lexicon).typing c = .ok u) :
    u.convertedTimezone = t.convertedTimezone ∧ u.unit = t.unit := by
  apply Typing.factsOnly_eq_iff.mp
  unfold Scope.typing at ht hu
  rw [fieldTyping_withExpressions] at hu
  exact Clause.factsOnly_typing_eq (fun _ _ => Scope.factsOnly_namedTyping)
    (fun _ _ => Scope.factsOnly_namedTyping) hu ht

def movedDate : Stage :=
  (ofTable 1).withExpression "local" (.call "convert-timezone"
    [.field ⟨.id 1, {}⟩, .literal (.string "Asia/Tokyo")])

theorem facts_eq_withExpressions_movedDate :
    let expressions := OrderedMap.empty.insert "local" { clause := .literal (.string "here") }
    let c : Clause := .case [(.literal (.bool true), .value (.expression "local" {}) {})] none
    (movedDate.scope ⟨fun _ => none, id⟩).typing c = .ok (.ofType .dateTime) ∧
      ((movedDate.withExpressions expressions).scope ⟨fun _ => none, id⟩).typing c =
        .ok (.ofType .text) ∧
      (Typing.ofType .text).convertedTimezone = (Typing.ofType .dateTime).convertedTimezone ∧
      (Typing.ofType .text).unit = (Typing.ofType .dateTime).unit := by
  intro expressions c
  have ht : (movedDate.scope ⟨fun _ => none, id⟩).typing c = .ok (.ofType .dateTime) := by
    decide +kernel
  have hu : ((movedDate.withExpressions expressions).scope ⟨fun _ => none, id⟩).typing c =
      .ok (.ofType .text) := by
    decide +kernel
  exact ⟨ht, hu, facts_eq_withExpressions ⟨fun _ => none, id⟩ movedDate expressions c ht hu⟩

end Stage

end ResultSchema
