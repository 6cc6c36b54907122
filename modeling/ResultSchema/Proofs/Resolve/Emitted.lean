import ResultSchema.Proofs.Resolve.Placed
import ResultSchema.Proofs.Resolve.Selected
import ResultSchema.Stage.Build

/-! # Emitted references

A column carries the reference that selects it again. A reference through a join with a foreign
key is emitted as one through that key, which no longer says what was joined: the field is
looked up in the stage itself. By id that is the same field, by name it need not be.
-/

namespace ResultSchema

structure FieldFacts where
  name : String
  displayName : String
  baseType : BaseType
  effectiveType : Option BaseType
  id : Option Int64

/-- The field under a column and the way to it. -/
structure ColumnFacts extends FieldFacts where
  fkFieldId : Option Int64
  fieldRef : Option ColumnRef

namespace ColumnFacts

def qualified (qualifier : String) (x : ColumnFacts) : ColumnFacts :=
  { x with displayName := Label.qualified qualifier x.displayName }

/-- The facts of a column behind a foreign key. -/
def behindKey (fk : Int64) (qualifier : String) (x : ColumnFacts) : ColumnFacts :=
  { x.qualified qualifier with fkFieldId := some fk }

def swapped (fk : Int64) (x : ColumnFacts) : ColumnFacts :=
  { x with
    fkFieldId := some fk
    fieldRef := x.fieldRef.map (·.mapOptions fun o =>
      { o with joinAlias := none, sourceField := some fk }) }

/-- The facts of a column of a join that follows a foreign key. -/
def throughKey (fk : Int64) (qualifier : String) (x : ColumnFacts) : ColumnFacts :=
  (x.qualified qualifier).swapped fk

/-- The facts of a column of a join. -/
def joined (join : Join Stage) (qualifier : String) (x : ColumnFacts) : ColumnFacts :=
  match join.fkFieldId with
  | none => x.qualified qualifier
  | some fk => x.throughKey fk qualifier

end ColumnFacts

namespace FieldRef

/-- The reference to the same field through a foreign key. -/
def throughKey (f : FieldRef) (fk : Int64) : FieldRef :=
  { f with options :=
    { f.options with joinAlias := none, sourceField := some fk, namespaced := .empty } }

end FieldRef

/-- The label by which a join qualifies the columns of a reference. -/
def Lexicon.qualifier (lexicon : Lexicon) (join : Join Stage) (f : FieldRef) :
    Except SchemaError String :=
  match join.fkFieldId.or f.options.sourceField with
  | some fk => lexicon.keyLabel fk
  | none => pure join.joinAlias

namespace Column

def fieldFacts (c : Column) : FieldFacts :=
  ⟨c.name, c.displayName, c.baseType, c.effectiveType, c.id⟩

def facts (c : Column) : ColumnFacts := ⟨c.fieldFacts, c.fkFieldId, c.fieldRef⟩

variable {lexicon : Lexicon}

theorem facts_qualifiedBy (join : Join Stage) (wrapped : Bool) (qualifier : String) (c : Column) :
    (c.qualifiedBy join wrapped qualifier).facts = c.facts.joined join qualifier := by
  rw [qualifiedBy_eq]
  unfold ColumnFacts.joined
  cases join.fkFieldId <;> rfl

theorem throughJoin_eq_map (join : Join Stage) (f : FieldRef) (wrapped : Bool) (c : Column) :
    c.throughJoin lexicon join f wrapped =
      (c.qualifiedBy join wrapped ·) <$> lexicon.qualifier join f := by
  unfold throughJoin Lexicon.qualifier
  cases join.fkFieldId.or f.options.sourceField <;> rfl

theorem facts_throughJoin (join : Join Stage) (f : FieldRef) (wrapped : Bool) (c : Column) :
    facts <$> c.throughJoin lexicon join f wrapped =
      (c.facts.joined join ·) <$> lexicon.qualifier join f := by
  rw [throughJoin_eq_map, Functor.map_map]
  simp only [facts_qualifiedBy]

theorem facts_throughKey (fk : Int64) (c : Column) :
    facts <$> c.throughKey lexicon fk = (c.facts.behindKey fk ·) <$> lexicon.keyLabel fk := by
  unfold throughKey Lexicon.keyLabel
  simp only [map_bind, map_pure, wrapIdent_eq]
  rfl

/-- Through one key, columns become the same only if they are of the same field. -/
theorem throughKey_facts_eq_iff {c d : Column} {f : FieldRef} {fk : Int64} {qualifier : String} :
    (c.referredBy f).facts.throughKey fk qualifier = (d.referredBy f).facts.throughKey fk qualifier ↔
      (c.referredBy f).fieldFacts = (d.referredBy f).fieldFacts := by
  constructor
  · intro h
    have hfield := congrArg ColumnFacts.toFieldFacts h
    simp only [FieldFacts.mk.injEq, ColumnFacts.throughKey, ColumnFacts.swapped,
      ColumnFacts.qualified, facts, fieldFacts, Label.qualified_inj] at hfield ⊢
    exact hfield
  · intro h
    unfold facts
    rw [h]
    rfl

end Column

namespace Scope

variable {scope : Scope (Except SchemaError)}

theorem facts_place_join (hcard : scope.stage.card = none) (join : Join Stage) (f : FieldRef)
    (c : Column) : Column.facts <$> scope.place (some join) f c =
      (c.facts.joined join ·) <$> scope.lexicon.qualifier join f := by
  rw [← Column.facts_throughJoin]
  unfold place
  rw [hcard]
  exact congrArg _ (bind_pure _)

theorem facts_place_none (hcard : scope.stage.card = none) (f : FieldRef) (c : Column) :
    Column.facts <$> scope.place none f c =
      match f.options.sourceField with
      | some fk => (c.facts.behindKey fk ·) <$> scope.lexicon.keyLabel fk
      | none => .ok c.facts := by
  unfold place
  rw [hcard]
  cases f.options.sourceField with
  | none => rfl
  | some fk =>
    refine Eq.trans ?_ (Column.facts_throughKey fk c)
    exact congrArg _ (bind_pure _)

theorem facts_place_congr (hcard : scope.stage.card = none) (join : Option (Join Stage))
    (f : FieldRef) {c d : Column} (h : c.facts = d.facts) :
    Column.facts <$> scope.place join f c = Column.facts <$> scope.place join f d := by
  cases join with
  | none => rw [facts_place_none hcard, facts_place_none hcard, h]
  | some join => rw [facts_place_join hcard, facts_place_join hcard, h]

theorem facts_field_withoutNamespaced (hcard : scope.stage.card = none) (f : FieldRef) :
    Column.facts <$> scope.field f.withoutNamespaced = Column.facts <$> scope.field f := by
  unfold field fieldBy
  simp only [map_bind, ofExcept_self]
  refine bind_congr fun join => bind_congr fun c => ?_
  exact facts_place_congr hcard _ f rfl

theorem facts_field_throughKey (hcard : scope.stage.card = none) (f : FieldRef) (fk : Int64) :
    Column.facts <$> scope.field (f.throughKey fk) =
      scope.target none f.id >>= fun c =>
        ((c.referredBy f).facts.throughKey fk ·) <$> scope.lexicon.keyLabel fk := by
  have hfield : scope.field (f.throughKey fk) = scope.target none f.id >>= fun c =>
      scope.place none (f.throughKey fk) (c.referredBy (f.throughKey fk)) := by
    unfold field fieldBy
    simp only [ofExcept_self]
    rfl
  rw [hfield, map_bind]
  exact bind_congr fun c => facts_place_none hcard (f.throughKey fk) _

end Scope

namespace Stage

variable {lexicon : Lexicon} {s : Stage} {f : FieldRef} {c : Column}

/-- The join that a reference goes through. -/
def joinFor? (s : Stage) (f : FieldRef) : Option (Join Stage) := f.options.joinAlias.bind s.join?

theorem joinOf_eq {join : Option (ScopedJoin (Except SchemaError))}
    (h : (s.scope lexicon).joinOf f = .ok join) :
    join = (s.joinFor? f).map fun j => ⟨j, j.stage.visible lexicon⟩ := by
  unfold Scope.joinOf at h
  unfold joinFor?
  cases halias : f.options.joinAlias with
  | none =>
    rw [halias] at h
    cases h
    rfl
  | some joinAlias =>
    rw [halias] at h
    obtain ⟨j, hj, rfl⟩ := map_eq_ok_iff.mp h
    rw [ofExcept_self] at hj
    obtain ⟨join, hjoin, rfl⟩ := scope_join_eq_ok_iff.mp hj
    rw [Option.bind_some, hjoin, Option.map_some]

/-- The reference that a column resolved from another carries. -/
def emitted (s : Stage) (f : FieldRef) : FieldRef :=
  match (s.joinFor? f).bind (·.fkFieldId) with
  | some fk => f.throughKey fk
  | none => f.withoutNamespaced

/-- A by-name reference through a join with a foreign key means the same field in what the
stage itself reads. -/
def RereadsName (lexicon : Lexicon) (s : Stage) (f : FieldRef) : Prop :=
  ∀ name j, f.id = .name name → s.joinFor? f = some j → j.fkFieldId.isSome →
    ∃ c d, (s.scope lexicon).named (some ⟨j, j.stage.visible lexicon⟩) name = .ok c ∧
      (s.scope lexicon).named none name = .ok d ∧
      (d.referredBy f).fieldFacts = (c.referredBy f).fieldFacts

/-- The facts of a resolved column, by the join that its reference goes through. -/
theorem facts_place_of_field (h : (s.scope lexicon).field f = .ok c) :
    ∃ t, (s.scope lexicon).target ((s.joinFor? f).map fun j => ⟨j, j.stage.visible lexicon⟩) f.id =
        .ok t ∧
      Column.facts <$> (s.scope lexicon).place (s.joinFor? f) f (t.referredBy f) = .ok c.facts := by
  obtain ⟨join, hjoin, h⟩ := bind_eq_ok_iff.mp h
  obtain ⟨t, ht, h⟩ := bind_eq_ok_iff.mp h
  rw [ofExcept_self] at h
  obtain rfl := joinOf_eq hjoin
  rw [Option.map_map] at h
  have hid : (ScopedJoin.join ∘ fun j : Join Stage => ScopedJoin.mk j (j.stage.visible lexicon)) =
    id := rfl
  rw [hid, Option.map_id] at h
  exact ⟨t, ht, map_eq_ok_iff.mpr ⟨c, h, rfl⟩⟩

theorem rereadsName_of_key_none (hkey : (s.joinFor? f).bind (·.fkFieldId) = none) :
    s.RereadsName lexicon f := by
  intro name j _ hj hsome
  rw [hj, Option.bind_some] at hkey
  rw [hkey] at hsome
  cases hsome

/-- A reference means the same field behind a join as in what the stage itself reads. -/
def MeansAlike (lexicon : Lexicon) (s : Stage) (f : FieldRef) (j : Join Stage) : Prop :=
  ∃ t u, (s.scope lexicon).target (some ⟨j, j.stage.visible lexicon⟩) f.id = .ok t ∧
    (s.scope lexicon).target none f.id = .ok u ∧
    (u.referredBy f).fieldFacts = (t.referredBy f).fieldFacts

theorem rereadsName_iff {j : Join Stage} (hj : s.joinFor? f = some j) (hkey : j.fkFieldId.isSome)
    (h : (s.scope lexicon).field f = .ok c) :
    s.RereadsName lexicon f ↔ s.MeansAlike lexicon f j := by
  unfold RereadsName MeansAlike
  cases hid : f.id with
  | id i =>
    refine iff_of_true (fun _ _ hid => ?_) ?_
    · cases hid
    · obtain ⟨t, ht, -⟩ := facts_place_of_field h
      rw [hid] at ht
      exact ⟨t, t, ht, ht, rfl⟩
  | name name =>
    constructor
    · intro h
      exact h name j rfl hj hkey
    · intro h name' j' hname hj' _
      cases hname
      obtain rfl : j = j' := Option.some.inj (hj.symm.trans hj')
      exact h

section Again

variable (hcard : s.card = none)
include hcard

theorem card_scope : (s.scope lexicon).stage.card = none := by rw [scope_stage, hcard]

theorem fieldRef_of_field (h : (s.scope lexicon).field f = .ok c) :
    c.fieldRef = some (.field (s.emitted f)) := by
  obtain ⟨t, -, h⟩ := facts_place_of_field h
  unfold emitted
  cases hj : s.joinFor? f with
  | none =>
    rw [hj, Scope.facts_place_none (card_scope hcard)] at h
    cases hfk : f.options.sourceField with
    | none =>
      rw [hfk] at h
      exact (congrArg ColumnFacts.fieldRef (Except.ok.inj h)).symm
    | some fk =>
      rw [hfk] at h
      obtain ⟨q, -, h⟩ := map_eq_ok_iff.mp h
      exact (congrArg ColumnFacts.fieldRef h).symm
  | some j =>
    rw [hj, Scope.facts_place_join (card_scope hcard)] at h
    obtain ⟨q, -, h⟩ := map_eq_ok_iff.mp h
    refine (congrArg ColumnFacts.fieldRef h).symm.trans ?_
    unfold ColumnFacts.joined
    rw [Option.bind_some]
    cases j.fkFieldId <;> rfl

theorem field_withoutNamespaced (h : (s.scope lexicon).field f = .ok c) :
    ∃ d, (s.scope lexicon).field f.withoutNamespaced = .ok d ∧ d.facts = c.facts := by
  refine map_eq_ok_iff.mp ?_
  rw [Scope.facts_field_withoutNamespaced (card_scope hcard), h]
  rfl

/-- A reference through a foreign key of a join is emitted as one that looks the field up in
the stage itself. -/
theorem field_throughKey_iff {j : Join Stage} {fk : Int64} (hj : s.joinFor? f = some j)
    (hfk : j.fkFieldId = some fk) (h : (s.scope lexicon).field f = .ok c) :
    (∃ d, (s.scope lexicon).field (f.throughKey fk) = .ok d ∧ d.facts = c.facts) ↔
      s.MeansAlike lexicon f j := by
  unfold MeansAlike
  obtain ⟨t, ht, h⟩ := facts_place_of_field h
  rw [hj] at ht h
  have hqualifier : (s.scope lexicon).lexicon.qualifier j f =
      (s.scope lexicon).lexicon.keyLabel fk := by
    unfold Lexicon.qualifier
    rw [hfk]
    rfl
  have hjoined : (t.referredBy f).facts.joined j = ((t.referredBy f).facts.throughKey fk ·) := by
    unfold ColumnFacts.joined
    rw [hfk]
  rw [Scope.facts_place_join (card_scope hcard), hqualifier, hjoined] at h
  obtain ⟨q, hq, hc⟩ := map_eq_ok_iff.mp h
  -- Both are qualified by the label of the same key, so only their fields can differ.
  rw [← map_eq_ok_iff, Scope.facts_field_throughKey (card_scope hcard), bind_eq_ok_iff, hq, ← hc]
  constructor
  · rintro ⟨u, hu, h⟩
    exact ⟨t, u, ht, hu, Column.throughKey_facts_eq_iff.mp (Except.ok.inj h)⟩
  · rintro ⟨t', u, ht', hu, h⟩
    obtain rfl : t = t' := Except.ok.inj (ht.symm.trans ht')
    exact ⟨u, hu, congrArg Except.ok (Column.throughKey_facts_eq_iff.mpr h)⟩

/-- In a stage without source card the emitted reference makes the column again, exactly when
the reference is not one by name, through a join with a foreign key, that means another field in
what the stage itself reads. -/
theorem field_emitted_iff (h : (s.scope lexicon).field f = .ok c) :
    (∃ g d, c.fieldRef = some (.field g) ∧ (s.scope lexicon).field g = .ok d ∧
      d.facts = c.facts) ↔ s.RereadsName lexicon f := by
  simp only [fieldRef_of_field hcard h, Option.some.injEq, ColumnRef.field.injEq, exists_and_left,
    exists_eq_left']
  unfold emitted
  cases hkey : (s.joinFor? f).bind (·.fkFieldId) with
  | none => exact iff_of_true (field_withoutNamespaced hcard h) (rereadsName_of_key_none hkey)
  | some fk =>
    obtain ⟨j, hj, hfk⟩ := Option.bind_eq_some_iff.mp hkey
    have hsome : j.fkFieldId.isSome := by rw [hfk]; rfl
    exact (field_throughKey_iff hcard hj hfk h).trans (rereadsName_iff hj hsome h).symm

end Again

def ownerLexicon : Lexicon where
  catalog id :=
    if id = 1 then some { id, name := "owner_id", displayName := "Owner ID", baseType := .integer }
    else if id = 2 then some { id, name := "name", displayName := "Full Name", baseType := .text }
    else none
  humanizer := Humanizer.ofTable [("name", "Name")]

def owned : Stage :=
  (ofTable 1).withJoin (.implicit "P" ((ofTable 2).withField (.field ⟨.id 2, {}⟩)) 1)

def ownerName (f : FieldRef) : Column where
  name := "name"
  displayName := "Owner → Full Name"
  baseType := .text
  fieldRef := some (.field (f.throughKey 1))
  id := some 2
  sourceAlias := some "P"
  fkFieldId := some 1

theorem field_emitted_iff_of_ownerName :
    ∃ g d, (ownerName ⟨.id 2, { joinAlias := some "P" }⟩).fieldRef = some (.field g) ∧
      (owned.scope ownerLexicon).field g = .ok d ∧
      d.facts = (ownerName ⟨.id 2, { joinAlias := some "P" }⟩).facts := by
  have hfield : (owned.scope ownerLexicon).field ⟨.id 2, { joinAlias := some "P" }⟩ =
      .ok (ownerName ⟨.id 2, { joinAlias := some "P" }⟩) := by decide +kernel
  refine (field_emitted_iff rfl hfield).mpr fun name j hid => ?_
  cases hid

/-- By name the column of the join is emitted as a reference to another, unknown column. -/
theorem field_emits_unknownName :
    owned.card = none ∧
      (owned.scope ownerLexicon).field ⟨.name "name", { joinAlias := some "P" }⟩ =
        .ok (ownerName ⟨.name "name", { joinAlias := some "P" }⟩) ∧
      (ownerName ⟨.name "name", { joinAlias := some "P" }⟩).fieldRef =
        some (.byName "name" { sourceField := some 1 }) ∧
      ∃ d, (owned.scope ownerLexicon).field ⟨.name "name", { sourceField := some 1 }⟩ = .ok d ∧
        d.displayName = "Owner → Name" ∧ d.baseType = .wildcard ∧ d.id = none := by
  refine ⟨rfl, by decide +kernel, rfl, ?_⟩
  refine ⟨{ name := "name", displayName := "Owner → Name", fkFieldId := some 1,
            fieldRef := some (.byName "name" { sourceField := some 1 }) }, ?_, rfl, rfl, rfl⟩
  decide +kernel

end Stage

end ResultSchema
