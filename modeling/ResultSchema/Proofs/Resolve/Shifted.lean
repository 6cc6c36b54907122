import ResultSchema.Proofs.Clause.Deciding
import ResultSchema.Resolve.Visible
import ResultSchema.Stage.Build

/-! # Shifted dates

Date arithmetic around a clause makes a date. It keeps the time zone of its first operand, so a
converted date keeps its zone under any number of shifts as long as it stands in front, and loses
it behind an interval.
-/

namespace ResultSchema

namespace Clause

/-- Date arithmetic directly around a clause, with whether the clause stands in front. -/
inductive Shifts (x : Clause) : Bool → Clause → Prop
  | operator {op : String} (rest : List Clause) :
      op ∈ ["datetime-add", "datetime-subtract"] → x.Shifts true (call op (x :: rest))
  | sum (before after : List Clause) : (∀ d ∈ before ++ after, Operator.isInterval d = true) →
      before ++ after ≠ [] → Operator.isInterval x = false →
      x.Shifts before.isEmpty (call "+" (before ++ x :: after))

/-- Date arithmetic around a clause, any number of times, with whether what is shifted always stands
in front. -/
inductive ShiftedFrom (x : Clause) : Bool → Clause → Prop
  | once {front : Bool} {y : Clause} : x.Shifts front y → x.ShiftedFrom front y
  | again {front front' : Bool} {y z : Clause} : x.ShiftedFrom front y → y.Shifts front' z →
      x.ShiftedFrom (front && front') z

variable {ofField : FieldRef → Except SchemaError Typing}
variable {ofNamed : String → Except SchemaError Typing} {x y : Clause} {front : Bool} {t : Typing}

theorem decision_of_shiftsDate {op : String} {args : List Clause}
    (h : Operator.shiftsDate op args = true) :
    (call op args).decision = .ofFirst .zone args := by
  have hop : op = "datetime-add" ∨ op = "datetime-subtract" ∨ op = "relative-datetime" ∨
      op = "+" := by
    simp only [Operator.shiftsDate, Bool.or_eq_true, decide_eq_true_eq, List.mem_cons,
      List.not_mem_nil, or_false, Bool.and_eq_true, beq_iff_eq] at h
    tauto
  rw [decision, if_pos h]
  rcases hop with rfl | rfl | rfl | rfl <;> rfl

theorem typing_of_shiftsDate {op : String} {args : List Clause}
    (h : Operator.shiftsDate op args = true) : (call op args).typing ofField ofNamed =
      Passage.zone.apply <$> firstOf (typing ofField ofNamed) args := by
  rw [typing_eq_decision, decision_of_shiftsDate h, Decision.typing_ofFirst]

theorem shiftsDate_of_interval {args : List Clause} {d : Clause} (hd : d ∈ args)
    (hinterval : Operator.isInterval d = true) : Operator.shiftsDate "+" args = true := by
  have hany : args.any Operator.isInterval = true := List.any_eq_true.mpr ⟨d, hd, hinterval⟩
  simp only [Operator.shiftsDate, hany, beq_self_eq_true, Bool.and_self, Bool.or_true]

/-- A shifted date has the time zone of the clause that it is shifted from only where that clause
stands in front. -/
theorem Shifts.typing_eq (h : x.Shifts front y) (hx : x.typing ofField ofNamed = .ok t) :
    y.typing ofField ofNamed =
      .ok (if front then Passage.zone.apply t else .ofType .dateTime) := by
  cases h with
  | @operator op rest hop =>
    have hshifts : Operator.shiftsDate op (x :: rest) = true := by
      simp only [List.mem_cons, List.not_mem_nil, or_false] at hop
      rcases hop with rfl | rfl <;> rfl
    rw [typing_of_shiftsDate hshifts, firstOf, hx]
    rfl
  | sum before after hintervals hsome =>
    obtain ⟨d, hd⟩ := List.exists_mem_of_ne_nil _ hsome
    have hmem : d ∈ before ++ x :: after := by
      simp only [List.mem_append, List.mem_cons] at hd ⊢
      exact hd.imp_right .inr
    rw [typing_of_shiftsDate (shiftsDate_of_interval hmem (hintervals d hd))]
    cases before with
    | nil =>
      rw [List.nil_append, firstOf, hx]
      rfl
    | cons first before =>
      -- An interval in front has a typing of its own, whatever stands behind it.
      cases first with
      | interval amount unit => rfl
      | _ => cases hintervals _ List.mem_cons_self

theorem ShiftedFrom.typing_eq (h : x.ShiftedFrom front y) (hx : x.typing ofField ofNamed = .ok t) :
    y.typing ofField ofNamed =
      .ok (if front then Passage.zone.apply t else .ofType .dateTime) := by
  induction h with
  | once h => exact h.typing_eq hx
  | @again front front' y z _ h ih =>
    rw [h.typing_eq ih]
    cases front <;> cases front' <;> rfl

end Clause

namespace Stage

/-- Date arithmetic around a clause, any number of times, makes a date. It has exactly the time zone
of the clause if that always stands in front, or has no time zone to lose. -/
theorem typing_shiftedFrom_iff (lexicon : Lexicon) (s : Stage) {x y : Clause} {front : Bool}
    {t : Typing} (h : x.ShiftedFrom front y) (hx : (s.scope lexicon).typing x = .ok t) :
    ∃ u, (s.scope lexicon).typing y = .ok u ∧ u.baseType = .dateTime ∧ u.effectiveType = none ∧
      u.coercionStrategy = none ∧ u.unit = none ∧
      (u.convertedTimezone = t.convertedTimezone ↔ front = true ∨ t.convertedTimezone = none) := by
  refine ⟨_, h.typing_eq hx, ?_⟩
  cases front with
  | true => exact ⟨rfl, rfl, rfl, rfl, iff_of_true rfl (.inl rfl)⟩
  | false =>
    refine ⟨rfl, rfl, rfl, rfl, ?_⟩
    constructor
    · exact fun hnone => .inr hnone.symm
    · exact fun h => (h.resolve_left Bool.false_ne_true).symm

def zonedDate : Clause :=
  .call "convert-timezone" [.field ⟨.id 1, {}⟩, .literal (.string "Asia/Tokyo")]

theorem typing_shiftedFrom_iff_zonedDate :
    let shifted : Clause := .call "datetime-add"
      [.call "+" [zonedDate, .interval 1 .day], .literal (.int 1), .literal (.string "day")]
    zonedDate.ShiftedFrom true shifted ∧
      ((ofTable 1).scope ⟨fun _ => none, id⟩).typing zonedDate =
        .ok { baseType := .dateTime, convertedTimezone := some "Asia/Tokyo" } ∧
      ∃ u, ((ofTable 1).scope ⟨fun _ => none, id⟩).typing shifted = .ok u ∧
        u.convertedTimezone = some "Asia/Tokyo" := by
  intro shifted
  have hshifted : zonedDate.ShiftedFrom true shifted :=
    .again (.once (.sum [] [.interval 1 .day] (by decide) (by decide) rfl))
      (.operator _ (by decide))
  have htyping : ((ofTable 1).scope ⟨fun _ => none, id⟩).typing zonedDate =
      .ok { baseType := .dateTime, convertedTimezone := some "Asia/Tokyo" } := by decide +kernel
  obtain ⟨u, hu, -, -, -, -, hzone⟩ :=
    typing_shiftedFrom_iff ⟨fun _ => none, id⟩ (ofTable 1) hshifted htyping
  exact ⟨hshifted, htyping, u, hu, hzone.mpr (.inl rfl)⟩

/-- Behind the interval that is added to it, a converted date loses its zone. -/
theorem typing_interval_add_zonedDate :
    zonedDate.Shifts false (.call "+" [.interval 1 .day, zonedDate]) ∧
      ((ofTable 1).scope ⟨fun _ => none, id⟩).typing zonedDate =
        .ok { baseType := .dateTime, convertedTimezone := some "Asia/Tokyo" } ∧
      ((ofTable 1).scope ⟨fun _ => none, id⟩).typing
        (.call "+" [.interval 1 .day, zonedDate]) = .ok { baseType := .dateTime } := by
  refine ⟨?_, by decide +kernel, by decide +kernel⟩
  exact .sum [.interval 1 .day] [] (by decide) (by decide) rfl

end Stage

end ResultSchema
