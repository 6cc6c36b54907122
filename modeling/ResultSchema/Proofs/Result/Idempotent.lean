import ResultSchema.Proofs.Result.Pairing
import ResultSchema.Proofs.Result.Precedence
import ResultSchema.Proofs.Result.Wrapped

/-! # Merging the same again

Whether columns are laid over others by key or by position, doing so a second time changes
nothing. Columns that are made from what the driver reports therefore stay as they are when the
report is laid over them in the end.
-/

namespace ResultSchema

namespace Column

variable {c declared : Column}

/-- What is declared of a column is on it already. -/
structure Carries (c declared : Column) : Prop where
  label : declared.label?.getD c.displayName = c.displayName
  baseType : BaseType.best [some declared.baseType, some c.baseType] = c.baseType
  effectiveType : declared.effectiveType.or c.effectiveType = c.effectiveType
  coercionStrategy : declared.coercionStrategy.or c.coercionStrategy = c.coercionStrategy
  id : declared.id.or c.id = c.id
  fkFieldId : declared.fkFieldId.or c.fkFieldId = c.fkFieldId
  sourceAlias : declared.sourceAlias.or c.sourceAlias = c.sourceAlias
  binning : declared.binning.or c.binning = c.binning
  convertedTimezone : declared.convertedTimezone.or c.convertedTimezone = c.convertedTimezone
  unit : (c.unit.filter (· ≠ .default)).or (declared.unit.or c.unit) = c.unit
  extra : c.extra.union declared.extra = c.extra
  ident : c.mergedIdent declared.ident = c.ident

theorem Carries.withDeclared_eq (h : c.Carries declared) : c.withDeclared declared = c := by
  have hlabel := (c.withDeclared_displayName declared).trans h.label
  have hbase := (c.withDeclared_baseType declared).trans h.baseType
  have hunit := (c.withDeclared_unit declared).trans h.unit
  calc c.withDeclared declared
    _ = { c with
          displayName := (c.withDeclared declared).displayName
          baseType := (c.withDeclared declared).baseType
          effectiveType := declared.effectiveType.or c.effectiveType
          coercionStrategy := declared.coercionStrategy.or c.coercionStrategy
          id := declared.id.or c.id
          fkFieldId := declared.fkFieldId.or c.fkFieldId
          sourceAlias := declared.sourceAlias.or c.sourceAlias
          binning := declared.binning.or c.binning
          convertedTimezone := declared.convertedTimezone.or c.convertedTimezone
          unit := (c.withDeclared declared).unit
          extra := c.extra.union declared.extra
          ident := c.mergedIdent declared.ident } := rfl
    _ = c := by
      rw [hlabel, hbase, h.effectiveType, h.coercionStrategy, h.id, h.fkFieldId, h.sourceAlias,
        h.binning, h.convertedTimezone, hunit, h.extra, h.ident]

theorem unit_again {own declared found : Option TemporalUnit}
    (h : found = (own.filter (· ≠ .default)).or (declared.or own)) :
    (found.filter (· ≠ .default)).or (declared.or found) = found := by
  cases hown : own.filter (· ≠ .default) with
  | some unit =>
    have hunit : (some unit).filter (· ≠ .default) = some unit := by
      rw [← hown, Option.filter_filter]
      simp
    rw [h, hown, Option.some_or, hunit, Option.some_or]
  | none =>
    rw [h, hown, Option.none_or, or_or_self]
    cases declared.or own with
    | none => rfl
    | some unit => cases unit <;> rfl

theorem withDeclared_carries (c declared : Column) :
    (c.withDeclared declared).Carries declared where
  label := by
    rw [withDeclared_displayName]
    cases declared.label? <;> rfl
  baseType := by rw [withDeclared_baseType, BaseType.best_again]
  effectiveType := or_or_self _ _
  coercionStrategy := or_or_self _ _
  id := or_or_self _ _
  fkFieldId := or_or_self _ _
  sourceAlias := or_or_self _ _
  binning := or_or_self _ _
  convertedTimezone := or_or_self _ _
  unit := unit_again (c.withDeclared_unit declared)
  extra := OrderedMap.insertAll_insertAll _ _
  ident := mergedIdent_again (c := c) rfl rfl

theorem withDeclared_withDeclared (c declared : Column) :
    (c.withDeclared declared).withDeclared declared = c.withDeclared declared :=
  (c.withDeclared_carries declared).withDeclared_eq

end Column

namespace Merge

variable {columns declaredColumns : List Column} {raws : List RawColumn}

theorem executed_executed (columns : List Column) (raws : List RawColumn) :
    executed (executed columns raws) raws = executed columns raws := by
  induction columns generalizing raws with
  | nil => cases raws <;> rfl
  | cons c columns ih =>
    cases raws with
    | nil => rfl
    | cons raw raws =>
      rw [executed, executed, (c.withExecuted_covers raw).withExecuted_eq, ih]

/-- A column keeps its key, so it is paired with the same declared column again. -/
theorem declared_declared (columns declaredColumns : List Column) :
    declared (declared columns declaredColumns) declaredColumns =
      declared columns declaredColumns := by
  by_cases hlen : declaredColumns.length = columns.length
  · rw [declared_of_length_eq hlen, declared_of_length_eq (by rwa [List.length_map]), List.map_map]
    refine List.map_congr_left fun c _ => ?_
    cases hfound : declaredColumns.find? (·.key == c.key) with
    | none => simp [hfound]
    | some d =>
      have hkey : (c.withDeclared d).key = c.key := rfl
      simp [hfound, hkey, Column.withDeclared_withDeclared]
  · rw [declared_of_length_ne hlen, declared_of_length_ne hlen]

theorem overlaid_overlaid (columns declaredColumns : List Column) :
    overlaid (overlaid columns declaredColumns) declaredColumns =
      overlaid columns declaredColumns := by
  by_cases hlen : declaredColumns.length = columns.length
  · rw [overlaid_of_length_eq hlen, overlaid_of_length_eq (by simp [hlen])]
    refine List.ext_getElem (by simp) fun i _ _ => ?_
    rw [List.getElem_zipWith, List.getElem_zipWith, Column.withDeclared_withDeclared]
  · rw [overlaid_of_length_ne hlen, overlaid_of_length_ne hlen]

end Merge

/-- The column is made from what the driver reports, and its ident is not its own. -/
structure Column.MadeFrom (raw : RawColumn) (c : Column) : Prop where
  covers : (raw.id = none → raw.Unadorned) → c.Covers raw
  ownsIdent : c.ownsIdent = false

theorem Column.MadeFrom.moved {raw : RawColumn} {c : Column} (h : c.MadeFrom raw) {name : String}
    {source : Option ColumnSource} {fieldRef : Option ColumnRef} {aggregationIndex : Option Nat}
    {expressionName : Option String}
    (howns : Column.ownsIdent
      { c with name, source, fieldRef, aggregationIndex, expressionName } = false) :
    Column.MadeFrom raw { c with name, source, fieldRef, aggregationIndex, expressionName } := by
  refine ⟨fun hplain => ?_, howns⟩
  have hcovers := h.covers hplain
  refine ⟨hcovers.effectiveType, hcovers.baseType, hcovers.id, hcovers.label, hcovers.extra, ?_⟩
  have hident := hcovers.ident
  rw [mergedIdent_eq, h.ownsIdent] at hident
  rw [mergedIdent_eq, howns]
  exact hident

namespace Annotator

variable {a : Annotator} {s : Stage} {results : ExecutionResult} {columns : List Column}

theorem reported_madeFrom (h : a.reported results = .ok columns) :
    List.Forall₂ Column.MadeFrom results.columns columns := by
  unfold reported at h
  split at h
  · rename_i hempty
    cases h
    rw [List.isEmpty_iff.mp hempty]
    exact .nil
  · refine (Native.forall₂_columns h).imp fun raw c ⟨_, _, hc⟩ => ?_
    have hsource := (Native.column_eq_ok hc).2
    exact ⟨fun hplain => Native.column_covers hplain hc, by simp [Column.ownsIdent, hsource]⟩

theorem sourceColumns_madeFrom (hend : s.sourceStage? = none)
    (h : a.sourceColumns results s none = .ok columns) :
    List.Forall₂ Column.MadeFrom results.columns columns ∨ columns = [] := by
  unfold sourceColumns at h
  cases hs : s.source with
  | stage t => simp [Stage.sourceStage?_eq_some_iff.mpr hs] at hend
  | none =>
    rw [hs] at h
    cases h
    exact .inr rfl
  | native query =>
    rw [hs] at h
    exact .inl (reported_madeFrom h)
  | table id =>
    rw [hs] at h
    obtain ⟨reported, hreported, rfl⟩ := map_eq_ok_iff.mp h
    rw [List.forall₂_map_right_iff]
    exact .inl ((reported_madeFrom hreported).imp fun _ _ hc => hc.moved rfl)

theorem chainColumns_madeFrom
    (hpass : ∀ t ∈ s.chain, t.selects = false ∧ t.metadata = [] ∧ t.isModel = false)
    (h : a.chainColumns results s = .ok columns) :
    List.Forall₂ Column.MadeFrom results.columns columns ∨ columns = [] := by
  induction s using Stage.nested_induction generalizing columns with
  | step s ih _ =>
    obtain ⟨hselects, hmetadata, hmodel⟩ := hpass s (s.chain_eq ▸ List.mem_cons_self)
    cases hsource : s.sourceStage? with
    | none =>
      rw [chainColumns_of_not_selects hselects hmetadata hmodel, hsource] at h
      obtain ⟨found, hfound, rfl⟩ := map_eq_ok_iff.mp h
      obtain hmade | rfl := sourceColumns_madeFrom hsource hfound
      · exact .inl (forall₂_dedupe (fun _ c name hc => hc.moved hc.ownsIdent) hmade)
      · exact .inr rfl
    | some t =>
      rw [chainColumns_of_source hselects hmetadata hmodel hsource] at h
      obtain ⟨inner, hinner, rfl⟩ := map_eq_ok_iff.mp h
      have hpassed := fun u hu =>
        hpass u (Stage.chain_of_source hsource ▸ List.mem_cons_of_mem s hu)
      obtain hmade | rfl := ih t hsource hpassed hinner
      · rw [List.forall₂_map_right_iff]
        exact .inl (hmade.imp fun _ _ hc => hc.moved rfl)
      · exact .inr rfl

theorem withExecuted_passed
    (hpass : ∀ t ∈ s.chain, t.selects = false ∧ t.metadata = [] ∧ t.isModel = false)
    (h : a.chainColumns results s = .ok columns) {raw : RawColumn} {c : Column}
    (hmem : (raw, c) ∈ results.columns.zip columns) (hplain : raw.id = none → raw.Unadorned) :
    c.withExecuted raw = c := by
  obtain hmade | rfl := chainColumns_madeFrom hpass h
  · exact (((List.forall₂_iff_zip.mp hmade).2 hmem).covers hplain).withExecuted_eq
  · simp at hmem

/-- Laying the same columns over others twice is laying them over once, be they declared or the
driver's. Where stages only pass on what the driver reports, each of its columns meets the one that
was made from it. That changes nothing either if it names a known field, or gives no label, ident
or unknown type. -/
theorem merges_idempotent (columns declaredColumns : List Column) (raws : List RawColumn) :
    Merge.executed (Merge.executed columns raws) raws = Merge.executed columns raws ∧
    Merge.declared (Merge.declared columns declaredColumns) declaredColumns =
      Merge.declared columns declaredColumns ∧
    Merge.overlaid (Merge.overlaid columns declaredColumns) declaredColumns =
      Merge.overlaid columns declaredColumns ∧
    ∀ (a : Annotator) (s : Stage) (results : ExecutionResult) (passed : List Column),
      (∀ t ∈ s.chain, t.selects = false ∧ t.metadata = [] ∧ t.isModel = false) →
        a.chainColumns results s = .ok passed →
          ∀ raw c, (raw, c) ∈ results.columns.zip passed → (raw.id = none → raw.Unadorned) →
            c.withExecuted raw = c :=
  ⟨Merge.executed_executed columns raws, Merge.declared_declared columns declaredColumns,
    Merge.overlaid_overlaid columns declaredColumns,
    fun _ _ _ _ hpass h _ _ => withExecuted_passed hpass h⟩

def wrappedTwice : Stage := { source := .stage (wrapper .null .empty) }

def netPrices : ExecutionResult where
  columns :=
    List.replicate 2 {
      name := "price"
      id := some 2
      extra := .ofList [("display_name", .str "Net"), ("precision", .int 10)] } ++
    [{ name := "total", extra := .ofList [("display_name", .str "Sum")] }]

theorem merges_idempotent_of_wrappedTwice :
    (∀ t ∈ wrappedTwice.chain, t.selects = false ∧ t.metadata = [] ∧ t.isModel = false) ∧
      ∃ passed, priceOnly.chainColumns netPrices wrappedTwice = .ok passed ∧
        passed.map (fun c => (c.name, c.displayName, c.ident, c.extra.keys)) =
          [("price", "Net", some "f-price", ["precision"]),
            ("price_2", "Net", some "f-price", ["precision"]),
            ("total", "total", some "native__total", ["display_name"])] ∧
        ∀ p ∈ netPrices.columns.zip passed, p.1.id = some 2 → p.2.withExecuted p.1 = p.2 := by
  have hpass : ∀ t ∈ wrappedTwice.chain,
      t.selects = false ∧ t.metadata = [] ∧ t.isModel = false := by decide
  have h : (priceOnly.chainColumns netPrices wrappedTwice).toOption.map
      (·.map fun c => (c.name, c.displayName, c.ident, c.extra.keys)) =
        some [("price", "Net", some "f-price", ["precision"]),
          ("price_2", "Net", some "f-price", ["precision"]),
          ("total", "total", some "native__total", ["display_name"])] := by decide +kernel
  obtain ⟨passed, hpassed, hview⟩ := exists_of_toOption_map_eq_some h
  refine ⟨hpass, passed, hpassed, hview, fun p hp hid => ?_⟩
  exact (merges_idempotent [] [] []).2.2.2 priceOnly wrappedTwice netPrices passed hpass hpassed
    p.1 p.2 hp fun hnone => by rw [hnone] at hid; cases hid

end Annotator

end ResultSchema
