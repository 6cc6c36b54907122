import ResultSchema.Proofs.Comparison
import ResultSchema.Proofs.Resolve.Likeness

/-! # References in alike scopes

Scopes are alike when their lexicons, joins and sources answer alike, in whatever two monads
they are computed. A reference is then resolved alike in both.
-/

namespace ResultSchema

open MonadExcept (ofExcept)

variable {m n : Type → Type} [Monad m] [Monad n] [LawfulMonad m] [LawfulMonad n]
variable [MonadExceptOf SchemaError m] [MonadExceptOf SchemaError n] [LawfulThrow m] [LawfulThrow n]

/-- The same facts but for labels. -/
structure Lexicon.Alike (R : Comparison m n) (D : LabelRelation) (l k : Lexicon) : Prop where
  field : ∀ id, R.Lifted Eq (l.field id) (k.field id)
  humanizer : ∀ name, D.Rel (l.humanizer name) (k.humanizer name)

structure Join.Alike (j k : Join Stage) : Prop where
  joinAlias : j.joinAlias = k.joinAlias
  fkFieldId : j.fkFieldId = k.fkFieldId
  ident : j.ident = k.ident

theorem Join.Alike.refl (j : Join Stage) : j.Alike j := ⟨rfl, rfl, rfl⟩

structure ScopedJoin.Alike (R : Comparison m n) (D : LabelRelation) (j : ScopedJoin m)
    (k : ScopedJoin n) : Prop where
  join : j.join.Alike k.join
  columns : R.Rel (List.Forall₂ D.Like) j.columns k.columns

/-- Stages that agree in all that resolution reads of the stage itself. -/
structure Stage.Alike (s t : Stage) : Prop where
  metadata : s.metadata = t.metadata
  card : s.card.isSome = t.card.isSome
  declaresJoin : s.declaresJoin = t.declaresJoin
  breakouts : s.breakouts = t.breakouts
  aggregations : s.aggregations = t.aggregations
  fields : s.fields = t.fields
  expression : s.expressions.get? = t.expressions.get?
  expressionCount : s.expressions.entries.length = t.expressions.entries.length

theorem Stage.Alike.refl (s : Stage) : s.Alike s := ⟨rfl, rfl, rfl, rfl, rfl, rfl, rfl, rfl⟩

structure Scope.Alike (R : Comparison m n) (D : LabelRelation) (a : Scope m) (b : Scope n) :
    Prop where
  lexicon : a.lexicon.Alike R D b.lexicon
  stage : a.stage.Alike b.stage
  source : Option.Rel (R.Rel (List.Forall₂ D.Like)) a.source b.source
  join : ∀ joinAlias, R.Lifted (ScopedJoin.Alike R D) (a.join joinAlias) (b.join joinAlias)

variable {R : Comparison m n} {D : LabelRelation}

namespace Lexicon.Alike

variable {l k : Lexicon}

theorem refl (l : Lexicon) : l.Alike R D l where
  field id := by
    unfold Lexicon.field
    cases l.catalog id with
    | some _ => exact .pure rfl
    | none => exact .throw _ _
  humanizer _ := D.refl _

theorem parentedName (h : l.Alike R D k) (id : Int64) (left : Nat) (parent : Option Int64)
    (name : String) :
    R.Lifted Eq (l.parentedName id left parent name) (k.parentedName id left parent name) := by
  induction left, parent, name using parentedName_induction with
  | outermost left name => cases left <;> exact .pure rfl
  | cut => exact .throw _ _
  | nested left parent name ih =>
    refine .bind (h.field parent) ?_
    rintro f _ rfl
    exact ih f

theorem column (h : l.Alike R D k) (id : Int64) : R.Lifted D.Like (l.column id) (k.column id) := by
  refine .bind (h.field id) ?_
  rintro f _ rfl
  refine .bind (h.parentedName id _ _ _) ?_
  rintro name _ rfl
  exact .pure (.refl _)

theorem keyLabel (h : l.Alike R D k) (fk : Int64) :
    R.Lifted Eq (l.keyLabel fk) (k.keyLabel fk) := by
  refine .bind (h.field fk) ?_
  rintro f _ rfl
  exact .pure rfl

end Lexicon.Alike

namespace Column

variable {l k : Lexicon} {c d : Column}

theorem qualifiedBy_alike {j j' : Join Stage} (hj : j.Alike j') (hc : D.Like c d)
    (wrapped : Bool) (qualifier : String) :
    D.Like (c.qualifiedBy j wrapped qualifier) (d.qualifiedBy j' wrapped qualifier) := by
  have hq := (hc.qualified qualifier).map
    (f := fun c => { c with sourceAlias := some j.joinAlias }) fun _ _ => rfl
  have hw : ∀ wrapped : Bool, D.Like
      (if wrapped then ({ c.labelled (Label.qualified qualifier c.displayName) with
        sourceAlias := some j.joinAlias } : Column).wrapIdent Ident.joined j.ident else _)
      (if wrapped then ({ d.labelled (Label.qualified qualifier d.displayName) with
        sourceAlias := some j.joinAlias } : Column).wrapIdent Ident.joined j.ident else _)
    | false => hq
    | true => hq.wrapIdent _ _
  unfold qualifiedBy
  rw [← hj.joinAlias, ← hj.ident, ← hj.fkFieldId]
  cases j.fkFieldId with
  | none => exact hw wrapped
  | some fk => exact (hw wrapped).map (f := fun c => { c with
      fkFieldId := some fk
      fieldRef := c.fieldRef.map (·.mapOptions fun o =>
        { o with joinAlias := none, sourceField := some fk }) }) fun _ _ => rfl

theorem throughJoin_alike {j j' : Join Stage} (hl : l.Alike R D k) (hj : j.Alike j')
    (hc : D.Like c d) (f : FieldRef) (wrapped : Bool) :
    R.Lifted D.Like (c.throughJoin l j f wrapped) (d.throughJoin k j' f wrapped) := by
  unfold throughJoin
  rw [← hj.fkFieldId]
  cases j.fkFieldId.or f.options.sourceField with
  | none => exact .pure (hj.joinAlias ▸ qualifiedBy_alike hj hc wrapped _)
  | some fk =>
    refine .bind (hl.keyLabel fk) ?_
    rintro qualifier _ rfl
    exact .pure (qualifiedBy_alike hj hc wrapped qualifier)

theorem throughKey_alike (hl : l.Alike R D k) (hc : D.Like c d) (fk : Int64) :
    R.Lifted D.Like (c.throughKey l fk) (d.throughKey k fk) := by
  refine .bind (hl.field fk) ?_
  rintro key _ rfl
  have hw := hc.wrapIdent Ident.implicitlyJoined key.ident
  exact .pure ((hw.qualified _).map (f := fun c => { c with fkFieldId := some fk }) fun _ _ => rfl)

end Column

namespace ScopedJoin.Alike

variable {js : List (ScopedJoin m)} {ks : List (ScopedJoin n)}

theorem aliases_eq (h : List.Forall₂ (ScopedJoin.Alike R D) js ks) :
    js.map (·.join.joinAlias) = ks.map (·.join.joinAlias) :=
  map_eq_map_of_forall₂ (fun _ _ hjk => hjk.join.joinAlias) h

theorem find? (h : List.Forall₂ (ScopedJoin.Alike R D) js ks) (joinAlias : String) :
    Option.Rel (ScopedJoin.Alike R D) (js.find? (·.join.joinAlias == joinAlias))
      (ks.find? (·.join.joinAlias == joinAlias)) := by
  induction h with
  | nil => exact .none
  | cons hjk _ ih =>
    rw [List.find?_cons, List.find?_cons, hjk.join.joinAlias]
    split
    · exact .some hjk
    · exact ih

end ScopedJoin.Alike

/-- A name is looked for behind the join, and only without one in the source. -/
theorem Scope.findNamed_alike {a : Scope m} {b : Scope n}
    (hmetadata : a.stage.metadata = b.stage.metadata) {j : Option (ScopedJoin m)}
    {k : Option (ScopedJoin n)}
    (hj : Option.Rel (fun j k => R.Rel (List.Forall₂ D.Like) j.columns k.columns) j k)
    (hsource : j = none → Option.Rel (R.Rel (List.Forall₂ D.Like)) a.source b.source)
    (name : String) : R.Rel (Option.Rel D.Like) (a.findNamed j name) (b.findNamed k name) := by
  have hpick : ∀ {x : m (List Column)} {y : n (List Column)}, R.Rel (List.Forall₂ D.Like) x y →
      R.Rel (Option.Rel D.Like) ((·.find? (·.name == name)) <$> x)
        ((·.find? (·.name == name)) <$> y) :=
    fun hxy => Comparison.map hxy fun _ _ hs => LabelRelation.Like.find? hs name
  unfold Scope.findNamed
  cases hj with
  | some hcolumns => exact hpick hcolumns
  | none =>
    simp only [← hmetadata]
    cases a.stage.metadata.find? (·.name == name) with
    | some c => exact R.pure (.some (.refl c))
    | none =>
      have hsource := hsource rfl
      generalize a.source = x at hsource ⊢
      generalize b.source = y at hsource ⊢
      cases hsource with
      | none => exact R.pure .none
      | some hxy => exact hpick hxy

namespace Scope.Alike

variable {a : Scope m} {b : Scope n}

/-- Joins that are alike in the same order are found alike, and listed alike if they are not. -/
theorem join_of_forall₂ (h : List.Forall₂ (ScopedJoin.Alike R D) a.joins b.joins)
    (joinAlias : String) :
    R.Lifted (ScopedJoin.Alike R D) (a.join joinAlias) (b.join joinAlias) := by
  have hj := ScopedJoin.Alike.find? h joinAlias
  unfold Scope.join
  rw [ScopedJoin.Alike.aliases_eq h]
  generalize a.joins.find? (·.join.joinAlias == joinAlias) = j at hj ⊢
  generalize b.joins.find? (·.join.joinAlias == joinAlias) = k at hj ⊢
  cases hj with
  | some hj => exact .pure hj
  | none => exact .throw _ _

theorem place (h : a.Alike R D b) {j : Option (Join Stage)} {j' : Option (Join Stage)}
    (hj : Option.Rel Join.Alike j j') {c d : Column} (hc : D.Like c d) (f : FieldRef) :
    R.Lifted D.Like (a.place j f c) (b.place j' f d) := by
  have hhidden : ∀ {c d : Column} (declared : Bool), D.Like c d → D.Like
      (if a.stage.card.isSome && !declared then c.withoutJoinAlias else c)
      (if b.stage.card.isSome && !declared then d.withoutJoinAlias else d) := by
    intro c d declared h'
    rw [← h.stage.card]
    split
    · exact h'.map fun _ _ => rfl
    · exact h'
  cases hj with
  | none =>
    unfold Scope.place
    cases f.options.sourceField with
    | none => exact .pure (hhidden false hc)
    | some fk =>
      exact .bind (Column.throughKey_alike h.lexicon hc fk) fun _ _ hc => .pure (hhidden false hc)
  | some hj =>
    unfold Scope.place
    simp only [Option.map_some, Option.getD_some, ← hj.joinAlias, ← h.stage.declaresJoin]
    exact .bind (Column.throughJoin_alike h.lexicon hj hc f _) fun _ _ hc => .pure (hhidden _ hc)

theorem findNamed (h : a.Alike R D b) {j : Option (ScopedJoin m)} {j' : Option (ScopedJoin n)}
    (hj : Option.Rel (ScopedJoin.Alike R D) j j') (name : String) :
    R.Rel (Option.Rel D.Like) (a.findNamed j name) (b.findNamed j' name) := by
  refine findNamed_alike h.stage.metadata ?_ (fun _ => h.source) name
  cases hj with
  | none => exact .none
  | some hj => exact .some hj.columns

theorem seen (h : a.Alike R D b) (name : String) {found found' : Option Column}
    (hf : Option.Rel D.Like found found') : D.Like (a.seen name found) (b.seen name found') := by
  cases hf with
  | some hc => exact hc.map fun _ _ => rfl
  | none => exact ⟨_, h.lexicon.humanizer name, rfl⟩

theorem joinOf (h : a.Alike R D b) (f : FieldRef) :
    R.Rel (Option.Rel (ScopedJoin.Alike R D)) (a.joinOf f) (b.joinOf f) := by
  unfold Scope.joinOf
  cases f.options.joinAlias with
  | none => exact R.pure .none
  | some joinAlias => exact Comparison.map (h.join joinAlias) fun _ _ hj => .some hj

theorem target (h : a.Alike R D b) {j : Option (ScopedJoin m)} {j' : Option (ScopedJoin n)}
    (hj : Option.Rel (ScopedJoin.Alike R D) j j') (id : FieldId) :
    R.Rel D.Like (a.target j id) (b.target j' id) := by
  cases id with
  | id id => exact h.lexicon.column id
  | name name => exact Comparison.map (h.findNamed hj name) fun _ _ hf => h.seen name hf

theorem field (h : a.Alike R D b) (f : FieldRef) : R.Rel D.Like (a.field f) (b.field f) := by
  refine R.bind (h.joinOf f) fun j j' hj => R.bind (h.target hj f.id) fun c d hc => ?_
  have hreferred := hc.map (f := (·.referredBy f)) fun _ _ => rfl
  cases hj with
  | some hj => exact h.place (.some hj.join) hreferred f
  | none => exact h.place .none hreferred f

end Scope.Alike

end ResultSchema
