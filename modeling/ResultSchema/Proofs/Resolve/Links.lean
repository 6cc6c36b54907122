import ResultSchema.Proofs.Resolve.Placed
import ResultSchema.Proofs.Resolve.Selected

/-! # Links of emitted references

The link of a column says whether its reference is by catalog id and which join alias it
carries. The links of the columns that a stage selects can be read off the stage.
-/

namespace ResultSchema

def FieldId.isId : FieldId → Bool
  | id _ => true
  | name _ => false

/-- Whether a reference is by catalog id, and the join alias that it carries. -/
structure Link where
  byId : Bool := false
  joinAlias : Option String := none
  deriving DecidableEq, Repr

def FieldRef.link (f : FieldRef) : Link := ⟨f.id.isId, f.options.joinAlias⟩

def ColumnRef.link (r : ColumnRef) : Link := (r.field?.map FieldRef.link).getD {}

namespace Link

def withoutAlias (l : Link) : Link := { l with joinAlias := none }

/-- The link after the stage around selects the column again. -/
def reselected (l : Link) : Link := if l.byId then l else {}

end Link

namespace Column

def link (c : Column) : Link := (c.fieldRef.map ColumnRef.link).getD {}

/-- The join alias in the reference of a column. -/
def refAlias? (c : Column) : Option String :=
  (c.fieldRef.bind ColumnRef.field?).bind (·.options.joinAlias)

theorem joinAlias_link (c : Column) : c.link.joinAlias = c.refAlias? := by
  obtain ⟨_, _, _, _, _, _, fieldRef, _, _, _, _, _, _, _, _, _, _, _⟩ := c
  rcases fieldRef with _ | _ | _ | _ <;> rfl

theorem link_reselected (c : Column) : c.reselected.link = c.link.reselected := by
  obtain ⟨_, _, _, _, _, _, fieldRef, _, _, _, _, _, _, _, _, _, _, _⟩ := c
  rcases fieldRef with _ | ⟨⟨_ | _, _⟩⟩ | _ | _ <;> rfl

theorem link_referredBy (c : Column) (f : FieldRef) : (c.referredBy f).link = f.link := rfl

theorem link_mapOptions {g : FieldOptions → FieldOptions} (hg : ∀ o, (g o).joinAlias = none)
    (ref : Option ColumnRef) : ((ref.map (·.mapOptions g)).map ColumnRef.link).getD {} =
      ((ref.map ColumnRef.link).getD {}).withoutAlias := by
  rcases ref with _ | ⟨f⟩ | _ | _
  case some.field => exact congrArg (Link.mk f.id.isId) (hg f.options)
  all_goals rfl

theorem link_withoutJoinAlias (c : Column) :
    c.withoutJoinAlias.link = c.link.withoutAlias := link_mapOptions (fun _ => rfl) c.fieldRef

theorem link_qualifiedBy (join : Join Stage) (wrapped : Bool) (qualifier : String) (c : Column) :
    (c.qualifiedBy join wrapped qualifier).link =
      if join.fkFieldId.isSome then c.link.withoutAlias else c.link := by
  rw [qualifiedBy_eq]
  cases join.fkFieldId with
  | none => rfl
  | some fk => exact link_mapOptions (fun _ => rfl) c.fieldRef

end Column

namespace Scope

variable {scope : Scope (Except SchemaError)} {c d : Column}

def dropsAlias (scope : Scope (Except SchemaError)) (join : Option (Join Stage)) : Bool :=
  join.any (·.fkFieldId.isSome) ||
    scope.stage.card.isSome && !join.any fun j => scope.stage.declaresJoin j.joinAlias

theorem link_showing (join : Option (Join Stage)) (c : Column) :
    (scope.showing join c).link =
      if scope.stage.card.isSome && !join.any fun j => scope.stage.declaresJoin j.joinAlias then
        c.link.withoutAlias
      else c.link := by
  unfold showing
  split
  · exact Column.link_withoutJoinAlias c
  · rfl

theorem link_place {join : Option (Join Stage)} {f : FieldRef}
    (h : scope.place join f c = .ok d) :
    d.link = if scope.dropsAlias join then c.link.withoutAlias else c.link := by
  obtain ⟨e, hplaces, rfl⟩ := exists_places_of_place h
  rw [link_showing]
  cases hplaces with
  | directly => rfl
  | throughKey => rfl
  | @throughJoin join =>
    rw [Column.link_qualifiedBy]
    unfold dropsAlias
    rw [Option.any_some, Option.any_some]
    cases join.fkFieldId.isSome with
    | true =>
      simp only [if_true, Bool.true_or]
      exact ite_self c.link.withoutAlias
    | false => simp only [Bool.false_eq_true, if_false, Bool.false_or]

end Scope

namespace Stage

variable {lexicon : Lexicon} {s : Stage} {c : Column}

/-- The join alias that is left in an emitted reference. An alias is dropped if its join
follows a foreign key, or lies inside a saved query. -/
def emittedAlias (s : Stage) (f : FieldRef) : Option String :=
  f.options.joinAlias.filter fun joinAlias =>
    (s.join? joinAlias).any fun j =>
      j.fkFieldId.isNone && (s.card.isNone || s.declaresJoin joinAlias)

def clauseLink (s : Stage) : Clause → Link
  | .field f => ⟨f.id.isId, s.emittedAlias f⟩
  | _ => {}

/-- The links of the columns that a stage selects. -/
def selectedLinks (s : Stage) : List Link :=
  s.breakouts.map (fun b => s.clauseLink b.clause) ++ s.aggregations.map (fun _ => ({} : Link))
    ++ s.fields.map s.clauseLink

theorem link_field {f : FieldRef} (h : (s.scope lexicon).field f = .ok c) :
    c.link = ⟨f.id.isId, s.emittedAlias f⟩ := by
  obtain ⟨join, hjoin, h⟩ := bind_eq_ok_iff.mp h
  obtain ⟨d, -, h⟩ := bind_eq_ok_iff.mp h
  rw [ofExcept_self] at h
  have hlink := Scope.link_place h
  rw [Column.link_referredBy] at hlink
  rw [hlink]
  unfold Scope.joinOf at hjoin
  unfold emittedAlias FieldRef.link Link.withoutAlias
  cases halias : f.options.joinAlias with
  | none =>
    simp
  | some joinAlias =>
    rw [halias] at hjoin
    obtain ⟨j, hj, rfl⟩ := map_eq_ok_iff.mp hjoin
    rw [ofExcept_self] at hj
    have hfound := join?_of_scope_join hj
    have hdrops : (s.scope lexicon).dropsAlias (some j.join) =
        !(j.join.fkFieldId.isNone && (s.card.isNone || s.declaresJoin joinAlias)) := by
      simp only [Scope.dropsAlias, scope_stage, Option.any_some, joinAlias_of_join? hfound]
      cases j.join.fkFieldId <;> cases s.card <;> cases s.declaresJoin joinAlias <;> rfl
    rw [Option.map_some, hdrops, Option.filter_some, hfound, Option.any_some]
    cases j.join.fkFieldId.isNone && (s.card.isNone || s.declaresJoin joinAlias) <;> rfl

theorem link_aggregation {index : Nat} {a : Aggregation}
    (h : (s.scope lexicon).aggregation index a = .ok c) : c.link = {} := by
  obtain ⟨description, -, h⟩ := bind_eq_ok_iff.mp h
  cases h
  rfl

theorem link_column {clause : Clause} (h : (s.scope lexicon).column clause = .ok c) :
    c.link = s.clauseLink clause := by
  rcases Scope.column_cases h with ⟨f, rfl, h⟩ | ⟨_, _, _, _, rfl, -, -, rfl⟩ | ⟨_, _, rfl, -, h⟩
  · exact link_field h
  · rfl
  · exact link_aggregation h

theorem link_breakout {b : Breakout} (h : (s.scope lexicon).breakout b = .ok c) :
    c.link = s.clauseLink b.clause := by
  obtain ⟨d, hd, h⟩ := bind_eq_ok_iff.mp h
  cases h
  have hlink := link_column hd
  exact hlink

theorem link_listed {clause : Clause} (h : (s.scope lexicon).listed clause = .ok c) :
    c.link = s.clauseLink clause := by
  obtain ⟨d, hd, h⟩ := bind_eq_ok_iff.mp h
  cases h
  have hlink := link_column hd
  exact hlink

/-- The links of the selected columns do not depend on what they are computed to be. -/
theorem map_link_columns {columns : List Column} (h : s.columns lexicon = .ok columns) :
    columns.map (·.link) = s.selectedLinks := by
  obtain ⟨breakouts, aggregations, fields, hb, ha, hf, rfl⟩ := Scope.columns_eq_ok_iff.mp h
  rw [scope_stage] at hb ha hf
  have hb := map_of_mapM_eq_ok (fun _ _ => link_breakout) hb
  have ha := map_of_mapM_eq_ok (k := fun _ => ({} : Link)) (fun _ _ => link_aggregation) ha
  have hf := map_of_mapM_eq_ok (fun _ _ => link_listed) hf
  rw [map_dedupe fun _ _ => rfl, List.map_append, List.map_append, hb, ha, hf, selectedLinks]
  simp only [List.map_const', List.length_zipIdx]

theorem declaresJoin_of_clauseLink (hcard : s.card.isSome) {clause : Clause} {joinAlias : String}
    (h : (s.clauseLink clause).joinAlias = some joinAlias) : s.declaresJoin joinAlias := by
  cases clause with
  | field f =>
    obtain ⟨-, hp⟩ := Option.filter_eq_some_iff.mp h
    obtain ⟨j, -, hj⟩ := (Option.any_eq_true _ _).mp hp
    rw [Bool.and_eq_true, Bool.or_eq_true] at hj
    rcases hj.2 with hnone | hdeclared
    · rw [Option.isNone_iff_eq_none.mp hnone] at hcard
      cases hcard
    · exact hdeclared
  | _ => cases h

theorem declaresJoin_of_mem_selectedLinks (hcard : s.card.isSome) {l : Link}
    (hl : l ∈ s.selectedLinks) {joinAlias : String} (ha : l.joinAlias = some joinAlias) :
    s.declaresJoin joinAlias := by
  rcases List.mem_append.mp hl with hl | hl
  · rcases List.mem_append.mp hl with hl | hl
    · obtain ⟨b, -, rfl⟩ := List.mem_map.mp hl
      exact declaresJoin_of_clauseLink hcard ha
    · obtain ⟨_, -, rfl⟩ := List.mem_map.mp hl
      cases ha
  · obtain ⟨clause, -, rfl⟩ := List.mem_map.mp hl
    exact declaresJoin_of_clauseLink hcard ha

end Stage

end ResultSchema
