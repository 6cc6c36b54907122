import ResultSchema.Proofs.Lookup
import ResultSchema.Proofs.Resolve.Selected
import ResultSchema.Stage.Build

/-! # Columns selected again by name

A stage that selects nothing passes on the columns of its source stage. A by-name reference to
such a column, resolved in the stage, makes the same column, but keeps the expression name that
passing on drops.
-/

namespace ResultSchema

namespace Column

/-- The name by which a passed on column is referred to, with its type as a hint. -/
def nameRef (c : Column) : FieldRef :=
  ⟨.name c.name, { baseType := if c.baseType.isWildcard then none else some c.baseType }⟩

theorem nameRef_of_reselected {c : Column} {name : String} {options : FieldOptions}
    (h : c.reselected.fieldRef = some (.field ⟨.name name, options⟩)) :
    (⟨.name name, options⟩ : FieldRef) = c.nameRef := by
  unfold reselected at h
  dsimp only at h
  split at h
  · cases h
  · cases h
    rfl

/-- The by-name reference makes what passing on makes, but for the expression name. -/
theorem reselected_eq_of_nameRef {c : Column} (h : c.reselected.fieldRef = some (.field c.nameRef)) :
    { c.withoutProvenance.referredBy c.nameRef with
      source := some .fields, expressionName := none } = c.reselected := by
  have hbase : (c.withoutProvenance.referredBy c.nameRef).baseType = c.baseType := by
    show (if c.baseType.isWildcard then
      (if c.baseType.isWildcard then none else some c.baseType).getD c.baseType else c.baseType) = _
    split <;> rfl
  calc { c.withoutProvenance.referredBy c.nameRef with
        source := some .fields, expressionName := none }
    _ = { c with
          fieldRef := some (.field c.nameRef), source := some .fields,
          aggregationIndex := none, expressionName := none,
          baseType := (c.withoutProvenance.referredBy c.nameRef).baseType } := rfl
    _ = { c with
          fieldRef := c.reselected.fieldRef, source := some .fields,
          aggregationIndex := none, expressionName := none } := by rw [hbase, h]
    _ = c.reselected := rfl

end Column

namespace Stage

variable {lexicon : Lexicon} {s t : Stage} {inner columns : List Column} {c : Column}

theorem columns_of_not_selects (h : s.selects = false) : s.columns lexicon = .ok [] := by
  simp only [selects, Bool.not_eq_false', Bool.and_eq_true, List.isEmpty_iff] at h
  obtain ⟨⟨hb, ha⟩, hf⟩ := h
  refine Scope.columns_eq_ok_iff.mpr ⟨[], [], [], ?_, ?_, ?_, rfl⟩
  all_goals
    rw [scope_stage]
    simp only [hb, ha, hf]
    rfl

theorem visible_eq_elim (hselects : s.selects = false) (hmetadata : s.metadata = []) :
    s.visible lexicon = s.sourceStage?.elim (.ok []) fun t =>
      (·.map Column.reselected) <$> t.visible lexicon := by
  have hcolumns : (s.scope lexicon).columns = .ok [] := columns_of_not_selects hselects
  rw [visible_eq, Scope.exposed, hcolumns, scope_source, scope_stage]
  unfold exposedBy
  rw [hmetadata]
  cases s.sourceStage? <;> rfl

theorem visible_of_not_selects (hselects : s.selects = false) (hmetadata : s.metadata = [])
    (hsource : s.sourceStage? = some t) :
    s.visible lexicon = (·.map Column.reselected) <$> t.visible lexicon := by
  rw [visible_eq_elim hselects hmetadata, hsource, Option.elim_some]

theorem named_of_mem_visible (hmetadata : s.metadata = []) (hsource : s.sourceStage? = some t)
    (ht : t.visible lexicon = .ok inner) (hnames : (inner.map (·.name)).Nodup) (hc : c ∈ inner) :
    (s.scope lexicon).named none c.name = .ok c.withoutProvenance := by
  have hfound : (s.scope lexicon).findNamed none c.name = .ok (some c) := by
    unfold Scope.findNamed
    rw [scope_stage, hmetadata, scope_source, hsource]
    refine map_eq_ok_iff.mpr ⟨inner, ht, ?_⟩
    exact (find?_key_eq_some_iff hnames).mpr ⟨hc, rfl⟩
  unfold Scope.named
  rw [hfound]
  rfl

theorem field_hinted (hmetadata : s.metadata = []) (hsource : s.sourceStage? = some t)
    (ht : t.visible lexicon = .ok inner) (hnames : (inner.map (·.name)).Nodup) (hc : c ∈ inner)
    (hint : Option BaseType) :
    (s.scope lexicon).field ⟨.name c.name, { baseType := hint }⟩ =
      .ok (c.withoutProvenance.referredBy ⟨.name c.name, { baseType := hint }⟩) := by
  refine bind_eq_ok_iff.mpr ⟨none, rfl, ?_⟩
  refine bind_eq_ok_iff.mpr ⟨_, named_of_mem_visible hmetadata hsource ht hnames hc, ?_⟩
  rw [ofExcept_self]
  -- The reference has no join alias that a source card could drop.
  refine congrArg Except.ok ?_
  exact ite_self _

theorem field_nameRef (hmetadata : s.metadata = []) (hsource : s.sourceStage? = some t)
    (ht : t.visible lexicon = .ok inner) (hnames : (inner.map (·.name)).Nodup) (hc : c ∈ inner) :
    (s.scope lexicon).field c.nameRef = .ok (c.withoutProvenance.referredBy c.nameRef) :=
  field_hinted hmetadata hsource ht hnames hc _

/-- Of a stage that passes its source stage on, a by-name reference selects the same column
again exactly when the column of the source stage has no expression name; it always selects the
same column but for that name. -/
theorem column_reselected_iff (hselects : s.selects = false) (hmetadata : s.metadata = [])
    (hsource : s.sourceStage? = some t) (ht : t.visible lexicon = .ok inner)
    (hnames : (inner.map (·.name)).Nodup) (hs : s.visible lexicon = .ok columns)
    (hc : c ∈ columns) {name : String} {options : FieldOptions}
    (href : c.fieldRef = some (.field ⟨.name name, options⟩)) :
    ∃ d, (s.scope lexicon).column (.field ⟨.name name, options⟩) = .ok d ∧
      { d with source := some .fields, expressionName := none } = c ∧
      ({ d with source := some .fields } = c ↔
        ∀ e ∈ inner, e.name = c.name → e.expressionName = none) := by
  rw [visible_of_not_selects hselects hmetadata hsource, ht] at hs
  cases hs
  obtain ⟨e, he, rfl⟩ := List.mem_map.mp hc
  have hname := Column.nameRef_of_reselected href
  rw [hname] at href ⊢
  have hsame := Column.reselected_eq_of_nameRef href
  refine ⟨_, field_nameRef hmetadata hsource ht hnames he, hsame, ?_⟩
  constructor
  · intro h e' he' hname'
    rw [List.inj_on_of_nodup_map hnames he' he hname']
    exact congrArg Column.expressionName h
  · intro h
    have hnone : e.expressionName = none := h e he rfl
    rw [← hsame, ← hnone]
    rfl

def priceLexicon : Lexicon where
  catalog id :=
    if id = 2 then some { id, name := "price", displayName := "Price", baseType := .float }
    else none
  humanizer := id

def counted : Stage := (ofTable 1).withAggregation { clause := .call "count" [] }

def countColumn : Column where
  name := "count"
  displayName := "Count"
  baseType := .bigInteger
  source := some .aggregation
  fieldRef := some (.aggregation 0)
  aggregationIndex := some 0

theorem column_reselected_iff_of_countColumn :
    ∃ d, (scope priceLexicon (ofQuery (.structural counted))).column
        (.field ⟨.name "count", { baseType := some .bigInteger }⟩) = .ok d ∧
      { d with source := some .fields } = countColumn.reselected := by
  have hinner : counted.visible priceLexicon = .ok [countColumn] := by decide +kernel
  have houter : visible priceLexicon (ofQuery (.structural counted)) =
      .ok [countColumn.reselected] := by decide +kernel
  obtain ⟨d, hd, -, hiff⟩ :=
    column_reselected_iff rfl rfl rfl hinner (by decide) houter List.mem_cons_self rfl
  exact ⟨d, hd, hiff.mpr (by decide)⟩

def doubled : Stage :=
  ((ofTable 1).withExpression "double" (.call "*" [.field ⟨.id 2, {}⟩, .literal (.int 2)])).withField
    (.expression "double" {})

def doubleColumn : Column where
  name := "double"
  displayName := "double"
  baseType := .float
  source := some .fields
  fieldRef := some (.expression "double" {})
  expressionName := some "double"

/-- Selected again by name, the expression keeps the name that passing it on drops. -/
theorem column_keeps_expressionName :
    (ofQuery (.structural doubled)).selects = false ∧
      (ofQuery (.structural doubled)).metadata = [] ∧
      doubled.visible priceLexicon = .ok [doubleColumn] ∧
      visible priceLexicon (ofQuery (.structural doubled)) = .ok [doubleColumn.reselected] ∧
      doubleColumn.reselected.fieldRef = some (.byName "double" { baseType := some .float }) ∧
      doubleColumn.reselected.expressionName = none ∧
      ∃ d, (scope priceLexicon (ofQuery (.structural doubled))).column
          (.field ⟨.name "double", { baseType := some .float }⟩) = .ok d ∧
        d.expressionName = some "double" ∧
        { d with source := some .fields } ≠ doubleColumn.reselected := by
  refine ⟨rfl, rfl, by decide +kernel, by decide +kernel, rfl, rfl, ?_⟩
  refine ⟨{ doubleColumn with
    source := none, fieldRef := some (.byName "double" { baseType := some .float }) }, ?_, rfl, ?_⟩
  · decide +kernel
  · decide

end Stage

end ResultSchema
