import ResultSchema.Proofs.Resolve.Parents

/-! # Placed columns

A column is placed as it is, behind a foreign key or as a join qualifies it. What a way leaves of
the column can be read off a description of the placed one.
-/

namespace ResultSchema

namespace Column

variable {lexicon : Lexicon} {c d : Column}

theorem wrapIdent_eq (wrap : String → String → String) (outer : Option String) (c : Column) :
    c.wrapIdent wrap outer =
      { c with ident := c.ident.map fun ident => outer.elim ident (wrap · ident) } := by
  obtain ⟨_, _, _, _, _, _, _, ident, _, _, _, _, _, _, _, _, _, _⟩ := c
  cases outer <;> cases ident <;> rfl

theorem qualifiedBy_eq (join : Join Stage) (wrapped : Bool) (qualifier : String) (c : Column) :
    c.qualifiedBy join wrapped qualifier = { c with
      sourceAlias := some join.joinAlias
      displayName := Label.qualified qualifier c.displayName
      ident := if wrapped then c.ident.map fun ident => join.ident.elim ident (Ident.joined · ident)
        else c.ident
      fkFieldId := join.fkFieldId.or c.fkFieldId
      fieldRef := match join.fkFieldId with
        | none => c.fieldRef
        | some fk => c.fieldRef.map (·.mapOptions fun o =>
            { o with joinAlias := none, sourceField := some fk }) } := by
  unfold qualifiedBy
  cases join.fkFieldId <;> cases wrapped <;> simp [wrapIdent_eq]

/-- The column that a foreign key leads to. -/
def behind (fk : Int64) (key : CatalogField) (c : Column) : Column :=
  { c with
    ident := c.ident.map fun ident => key.ident.elim ident (Ident.implicitlyJoined · ident)
    fkFieldId := some fk
    displayName := Label.qualified (Label.withoutId key.displayName) c.displayName }

theorem throughKey_eq_ok_iff {fk : Int64} : c.throughKey lexicon fk = .ok d ↔
    ∃ key, lexicon.catalog fk = some key ∧ c.behind fk key = d := by
  unfold throughKey
  simp only [bind_eq_ok_iff, Lexicon.field_eq_ok_iff, wrapIdent_eq, pure, Except.pure,
    Except.ok.injEq, behind]

theorem exists_qualifier_of_throughJoin {join : Join Stage} {f : FieldRef} {wrapped : Bool}
    (h : c.throughJoin lexicon join f wrapped = .ok d) :
    ∃ qualifier, c.qualifiedBy join wrapped qualifier = d := by
  unfold throughJoin at h
  split at h
  all_goals
    obtain ⟨qualifier, -, h⟩ := bind_eq_ok_iff.mp h
    exact ⟨qualifier, Except.ok.inj h⟩

end Column

namespace Scope

variable {m : Type → Type} {scope : Scope m} {join : Option (Join Stage)} {f : FieldRef}
variable {c d : Column}

/-- The column without the alias of a join that a saved query hides. -/
def showing (scope : Scope m) (join : Option (Join Stage)) (c : Column) : Column :=
  if scope.stage.card.isSome && !join.any fun j => scope.stage.declaresJoin j.joinAlias then
    c.withoutJoinAlias
  else c

/-- The ways in which a column is placed, before aliases are hidden. A join takes part in the ident
of the columns of its own stage and of those that are referred to by id. -/
inductive Places (scope : Scope m) (f : FieldRef) (c : Column) :
    Option (Join Stage) → Column → Prop
  | directly : f.options.sourceField = none → Places scope f c none c
  | throughKey {fk : Int64} {key : CatalogField} :
      f.options.sourceField = some fk → scope.lexicon.catalog fk = some key →
        Places scope f c none (c.behind fk key)
  | throughJoin {join : Join Stage} {wrapped : Bool} (qualifier : String) :
      (wrapped ↔ scope.stage.declaresJoin join.joinAlias ∨ ∃ id, f.id = .id id) →
        Places scope f c (some join) (c.qualifiedBy join wrapped qualifier)

theorem exists_places_of_place (h : scope.place join f c = .ok d) :
    ∃ e, Places scope f c join e ∧ scope.showing join e = d := by
  cases join with
  | none =>
    unfold place at h
    cases hfk : f.options.sourceField with
    | none =>
      rw [hfk] at h
      exact ⟨c, .directly hfk, Except.ok.inj h⟩
    | some fk =>
      rw [hfk] at h
      obtain ⟨e, he, h⟩ := bind_eq_ok_iff.mp h
      obtain ⟨key, hkey, rfl⟩ := Column.throughKey_eq_ok_iff.mp he
      exact ⟨_, .throughKey hfk hkey, Except.ok.inj h⟩
  | some join =>
    obtain ⟨e, he, h⟩ := bind_eq_ok_iff.mp h
    obtain ⟨qualifier, rfl⟩ := Column.exists_qualifier_of_throughJoin he
    refine ⟨_, .throughJoin qualifier ?_, Except.ok.inj h⟩
    cases f.id <;> simp

theorem showing_eq (join : Option (Join Stage)) (c : Column) :
    scope.showing join c = { c with fieldRef := (scope.showing join c).fieldRef } := by
  unfold showing
  split <;> rfl

/-- What placing a column leaves as it was. -/
theorem place_frame (h : scope.place join f c = .ok d) : d = { c with
    displayName := d.displayName
    fieldRef := d.fieldRef
    ident := d.ident
    sourceAlias := d.sourceAlias
    fkFieldId := d.fkFieldId } := by
  obtain ⟨e, hplaces, rfl⟩ := exists_places_of_place h
  rw [showing_eq]
  cases hplaces with
  | directly => rfl
  | throughKey => rfl
  | throughJoin => rw [Column.qualifiedBy_eq]

end Scope

end ResultSchema
