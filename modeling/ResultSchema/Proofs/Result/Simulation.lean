import ResultSchema.Proofs.Outcome
import ResultSchema.Proofs.Resolve.Survey
import ResultSchema.Proofs.Result.Shape
import ResultSchema.Proofs.Stage.Chain

/-! # Annotation of stages that select alike

Two annotators may see related stages of two trees. Along the chain of source stages all columns
are put together from those that stages select, so where these are alike, so are the annotations.
-/

namespace ResultSchema

/-- Outcomes that agree are related. -/
def Comparison.Coarse (R : Comparison (Except SchemaError) (Except SchemaError)) : Prop :=
  ∀ {α β : Type} {V : α → β → Prop} {x : Except SchemaError α} {y : Except SchemaError β},
    Agree V x y → R.Rel V x y

namespace LabelRelation

variable {D : LabelRelation} {c d : Column} {columns others : List Column}

theorem Like.key_eq (h : D.Like c d) : c.key = d.key := by
  obtain ⟨_, -, rfl⟩ := h; rfl

theorem Like.withDeclared (h : D.Like c d) (declared : Column) :
    D.Like (c.withDeclared declared) (d.withDeclared declared) := by
  obtain ⟨label, hl, rfl⟩ := h
  refine ⟨if declared.displayName.isEmpty then label else declared.displayName, ?_, rfl⟩
  show D.Rel (if declared.displayName.isEmpty then c.displayName else declared.displayName) _
  split
  · exact hl
  · exact D.refl _

theorem Like.withExecuted (h : D.Like c d) (raw : RawColumn) :
    D.Like (c.withExecuted raw) (d.withExecuted raw) := by
  obtain ⟨label, hl, rfl⟩ := h
  refine ⟨raw.label?.getD label, ?_, rfl⟩
  show D.Rel (raw.label?.getD c.displayName) _
  cases raw.label? with
  | none => exact hl
  | some _ => exact D.refl _

theorem Like.sameShape (h : D.Like c d) : c.SameShape d := by
  obtain ⟨_, -, rfl⟩ := h; exact ⟨rfl, rfl, rfl⟩

theorem Like.modelColumn (h : D.Like c d) {a b : Annotator} (hconfig : a.config = b.config)
    (entityId : String) : Agree D.Like (a.modelColumn entityId c) (b.modelColumn entityId d) := by
  unfold Annotator.modelColumn
  rw [← hconfig, ← h.sameShape.ident, ← h.sameShape.ownsIdent_eq]
  cases c.ident with
  | none =>
    cases a.config.production with
    | true => exact .ok h
    | false =>
      rw [h.name_eq]
      exact .error _
  | some ident =>
    have hscoped := h.map
      (f := fun c => { c with ident := some (Ident.modelScoped entityId ident) }) fun _ _ => rfl
    cases c.ownsIdent with
    | true => exact .ok h
    | false => exact .ok hscoped

theorem Like.declared (h : List.Forall₂ D.Like columns others) (declaredColumns : List Column) :
    List.Forall₂ D.Like (Merge.declared columns declaredColumns)
      (Merge.declared others declaredColumns) := by
  unfold Merge.declared
  rw [h.length_eq]
  split
  · exact h
  refine List.rel_map (fun c d hcd => ?_) h
  rw [hcd.key_eq]
  split
  · exact hcd.withDeclared _
  · exact hcd

theorem Like.overlaid (h : List.Forall₂ D.Like columns others) (declared : List Column) :
    List.Forall₂ D.Like (Merge.overlaid columns declared) (Merge.overlaid others declared) :=
  Merge.overlaid_forall₂ (fun _ _ d hcd => hcd.withDeclared d) h declared

theorem Like.executed (h : List.Forall₂ D.Like columns others) (raws : List RawColumn) :
    List.Forall₂ D.Like (Merge.executed columns raws) (Merge.executed others raws) := by
  induction h generalizing raws with
  | nil => cases raws <;> exact .nil
  | cons hcd h ih =>
    cases raws with
    | nil => exact .cons hcd h
    | cons raw raws => exact .cons (hcd.withExecuted raw) (ih raws)

end LabelRelation

section Native

variable {R : Comparison (Except SchemaError) (Except SchemaError)} {D : LabelRelation}
variable {l k : Lexicon}

theorem Native.ofCatalog_alike (hl : l.Alike R D k) (raw : RawColumn) (id : Int64)
    (unique : String) : R.Rel D.Like (ofCatalog l raw id unique) (ofCatalog k raw id unique) := by
  have hc : R.Rel D.Like (l.column id) (k.column id) := by
    simpa only [Comparison.Lifted, ofExcept_self] using hl.column id
  refine R.bind hc fun c d hcd => R.pure ?_
  have hraw := (hcd.map (f := (·.referredBy { id := .id id })) fun _ _ => rfl).withExecuted raw
  exact hraw.map (f := fun c => { c with
    ident := c.ident.or (some (Ident.native unique))
    name := unique
    source := some .native }) fun _ _ => rfl

theorem Native.column_alike (hl : l.Alike R D k) (raw : RawColumn) (sample : Option Json)
    (unique : String) :
    R.Rel D.Like (column l raw sample unique) (column k raw sample unique) := by
  unfold column
  cases raw.id with
  | some id => exact ofCatalog_alike hl raw id unique
  | none => exact R.pure (.refl _)

theorem Native.columns_alike (hR : R.Coarse) (hl : l.Alike R D k) (results : ExecutionResult) :
    R.Rel (List.Forall₂ D.Like) (columns l results) (columns k results) := by
  have hcheck : R.Rel Eq (checkWidth results) (checkWidth results) :=
    hR (.refl (fun _ => rfl) _)
  refine R.bind hcheck fun _ _ _ => ?_
  exact Comparison.mapM (List.forall₂_same.mpr fun x _ => column_alike hl _ _ _)

end Native

/-- Results that agree but for the labels of their columns, which are related. -/
structure AnnotatedResult.Alike (D : LabelRelation) (r r' : AnnotatedResult) : Prop where
  columns : List.Forall₂ D.Like r.columns r'.columns
  rows : r.rows = r'.rows
  extra : r.extra = r'.extra

theorem AnnotatedResult.Alike.eq {r r' : AnnotatedResult} (h : r.Alike LabelRelation.same r') :
    r = r' := by
  obtain ⟨hcolumns, hrows, hextra⟩ := h
  obtain ⟨columns, rows, extra⟩ := r
  cases LabelRelation.Like.list_eq hcolumns
  cases hrows
  cases hextra
  rfl

namespace Annotator

/-- Two annotators see related stages alike. -/
structure Simulation (R : Comparison (Except SchemaError) (Except SchemaError))
    (D : LabelRelation) (a b : Annotator) (S : Stage → Stage → Prop) : Prop where
  coarse : R.Coarse
  lexicon : a.lexicon.Alike R D b.lexicon
  maxStageDepth : a.config.maxStageDepth = b.config.maxStageDepth
  source : ∀ {s t}, S s t → Source.Rel S s.source t.source
  metadata : ∀ {s t}, S s t → s.metadata = t.metadata
  card : ∀ {s t}, S s t → s.card = t.card
  depth : ∀ {s t}, S s t → s.depth = t.depth
  columns : ∀ {s t}, S s t →
    R.Rel (List.Forall₂ D.Like) (s.columns a.lexicon) (t.columns b.lexicon)
  modelColumns : ∀ {s t columns others}, S s t → List.Forall₂ D.Like columns others →
    R.Rel (List.Forall₂ D.Like) (a.modelColumns s columns) (b.modelColumns t others)

variable {R : Comparison (Except SchemaError) (Except SchemaError)} {D : LabelRelation}
variable {a b : Annotator} {S : Stage → Stage → Prop} {s t : Stage} {results : ExecutionResult}
variable {columns others : List Column}

theorem modelColumns_alike (hR : R.Coarse) (hconfig : a.config = b.config)
    (hcard : s.card = t.card) (hc : List.Forall₂ D.Like columns others) :
    R.Rel (List.Forall₂ D.Like) (a.modelColumns s columns) (b.modelColumns t others) := by
  unfold Annotator.modelColumns
  rw [hcard, hconfig]
  cases t.card.bind (·.entityId) with
  | some entityId => exact Comparison.mapM (hc.imp fun _ _ hcd =>
      hR (hcd.modelColumn hconfig entityId))
  | none =>
    cases b.config.production with
    | true => exact R.pure hc
    | false => exact hR (.error _)

/-- Annotators whose lexicons answer alike see every stage alike, if they treat models alike. -/
theorem simulation_of_lexicon (hR : R.Coarse) (hl : a.lexicon.Alike R D b.lexicon)
    (hdepth : a.config.maxStageDepth = b.config.maxStageDepth)
    (hmodel : ∀ {s columns others}, List.Forall₂ D.Like columns others →
      R.Rel (List.Forall₂ D.Like) (a.modelColumns s columns) (b.modelColumns s others)) :
    Simulation R D a b Eq where
  coarse := hR
  lexicon := hl
  maxStageDepth := hdepth
  source := by
    rintro s _ rfl
    exact .of_eq s.source
  metadata h := congrArg _ h
  card h := congrArg _ h
  depth h := congrArg _ h
  columns := by
    rintro s _ rfl
    have hs : s.at? [] = some s := rfl
    exact (Stage.survey_alike hl (fun _ h => h) hs).1.columns
  modelColumns := by
    rintro s _ columns others rfl hc
    exact hmodel hc

namespace Simulation

theorem checkDepth (h : Simulation R D a b S) (hst : S s t) :
    R.Rel Eq (a.checkDepth s) (b.checkDepth t) := by
  unfold Annotator.checkDepth
  rw [h.maxStageDepth, h.depth hst]
  exact h.coarse (.refl (fun _ => rfl) _)

theorem stageColumns (h : Simulation R D a b S) (hst : S s t) :
    R.Rel (List.Forall₂ D.Like) (a.stageColumns s) (b.stageColumns t) :=
  R.bind (h.checkDepth hst) fun _ _ _ => h.columns hst

theorem reported (h : Simulation R D a b S) :
    R.Rel (List.Forall₂ D.Like) (a.reported results) (b.reported results) := by
  unfold Annotator.reported
  split
  · exact R.pure .nil
  · exact Native.columns_alike h.coarse h.lexicon results

variable {inner inner' : Option (Except SchemaError (List Column))}

theorem sourceColumns (h : Simulation R D a b S) (hst : S s t)
    (hinner : Option.Rel (R.Rel (List.Forall₂ D.Like)) inner inner') :
    R.Rel (List.Forall₂ D.Like) (a.sourceColumns results s inner)
      (b.sourceColumns results t inner') := by
  have hsource := h.source hst
  unfold Annotator.sourceColumns
  generalize s.source = x at hsource ⊢
  generalize t.source = y at hsource ⊢
  cases hsource with
  | none => exact R.pure .nil
  | native _ => exact h.reported
  | table _ =>
    exact Comparison.map h.reported fun _ _ hc => LabelRelation.Like.map_list hc fun _ _ => rfl
  | stage _ =>
    cases hinner with
    | none => exact R.pure .nil
    | some hinner =>
      exact Comparison.map hinner fun _ _ hc => LabelRelation.Like.map_list hc fun _ _ => rfl

theorem passedThrough (h : Simulation R D a b S) (hst : S s t)
    (hinner : Option.Rel (R.Rel (List.Forall₂ D.Like)) inner inner') :
    R.Rel (List.Forall₂ D.Like) (a.passedThrough results s inner)
      (b.passedThrough results t inner') := by
  refine R.bind (h.sourceColumns hst hinner) fun columns others hc => R.pure ?_
  rw [h.metadata hst]
  cases hc with
  | nil => exact List.forall₂_same.mpr fun c _ => .refl c
  | cons hcd hrest => exact LabelRelation.Like.overlaid (.cons hcd hrest) t.metadata

theorem columnsOver (h : Simulation R D a b S) (hst : S s t)
    (hinner : Option.Rel (R.Rel (List.Forall₂ D.Like)) inner inner') :
    R.Rel (List.Forall₂ D.Like) (a.columnsOver results s inner)
      (b.columnsOver results t inner') := by
  have hmodel : s.isModel = t.isModel := by
    unfold Stage.isModel
    rw [h.card hst]
  rw [columnsOver_eq, columnsOver_eq, hmodel]
  refine R.bind (h.columns hst) fun selected selected' hselected => ?_
  refine R.bind (R.bind (V := List.Forall₂ D.Like) ?_ fun columns others hc => ?_)
    fun _ _ hc => R.pure (LabelRelation.Like.dedupe hc)
  · cases hselected with
    | nil => exact h.passedThrough hst hinner
    | cons hcd hrest =>
      rw [h.metadata hst]
      exact R.pure (LabelRelation.Like.declared (.cons hcd hrest) t.metadata)
  · split
    · exact h.modelColumns hst hc
    · exact R.pure hc

theorem chainColumns (h : Simulation R D a b S) (hst : S s t) :
    R.Rel (List.Forall₂ D.Like) (a.chainColumns results s) (b.chainColumns results t) := by
  induction s using Stage.nested_induction generalizing t with
  | step s ih _ =>
    rw [chainColumns_eq, chainColumns_eq]
    exact h.columnsOver hst (optionRel_map (h.source hst).stage? fun s' hs t' hst' => ih s' hs hst')

variable {q q' : Query}

theorem columnInfo (h : Simulation R D a b S) (hq : Query.Rel S q q') (results : ExecutionResult) :
    R.Rel (List.Forall₂ D.Like) (a.columnInfo q results) (b.columnInfo q' results) := by
  cases hq with
  | native query => exact Native.columns_alike h.coarse h.lexicon results
  | structural hst =>
    refine R.bind (h.checkDepth hst) fun _ _ _ => R.bind (h.chainColumns hst) fun _ _ hc => ?_
    exact R.pure (LabelRelation.Like.dedupe (LabelRelation.Like.executed hc results.columns))

/-- Queries of related stages are annotated alike. -/
theorem annotate (h : Simulation R D a b S) (hq : Query.Rel S q q') (results : ExecutionResult) :
    R.Rel (AnnotatedResult.Alike D) (a.annotate q results) (b.annotate q' results) := by
  refine R.bind (h.columnInfo hq results) fun columns others hc => ?_
  have hcheck : R.Rel Eq (checkWidth columns results) (checkWidth others results) := by
    unfold checkWidth
    rw [hc.length_eq, map_eq_map_of_forall₂ (fun _ _ hcd => hcd.name_eq) hc]
    exact h.coarse (.refl (fun _ => rfl) _)
  exact R.bind hcheck fun _ _ _ => R.pure ⟨hc, rfl, rfl⟩

end Simulation

end Annotator

end ResultSchema
