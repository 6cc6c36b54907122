import ResultSchema.Proofs.Comparison
import ResultSchema.Proofs.Result.Exposed
import ResultSchema.Proofs.Result.Selecting

/-! # The driver leaves the structure of columns

What the driver reports is not read where some stage of the chain selects columns. It is only laid
over the columns in the end, which changes types, ids, idents, labels and extra keys.
-/

namespace ResultSchema

/-- Two columns agree in all that describes where they come from. -/
structure Column.SameStructure (c d : Column) : Prop where
  name : c.name = d.name
  fieldRef : c.fieldRef = d.fieldRef
  source : c.source = d.source
  aggregationIndex : c.aggregationIndex = d.aggregationIndex
  expressionName : c.expressionName = d.expressionName
  coercionStrategy : c.coercionStrategy = d.coercionStrategy
  sourceAlias : c.sourceAlias = d.sourceAlias
  fkFieldId : c.fkFieldId = d.fkFieldId
  binning : c.binning = d.binning
  unit : c.unit = d.unit
  convertedTimezone : c.convertedTimezone = d.convertedTimezone
  options : c.options = d.options

namespace Column.SameStructure

variable {c d : Column}

theorem refl (c : Column) : c.SameStructure c :=
  ⟨rfl, rfl, rfl, rfl, rfl, rfl, rfl, rfl, rfl, rfl, rfl, rfl⟩

theorem symm (h : c.SameStructure d) : d.SameStructure c :=
  ⟨h.1.symm, h.2.symm, h.3.symm, h.4.symm, h.5.symm, h.6.symm, h.7.symm, h.8.symm, h.9.symm,
    h.10.symm, h.11.symm, h.12.symm⟩

theorem withExecuted (h : c.SameStructure d) (raw : RawColumn) :
    c.SameStructure (d.withExecuted raw) := by
  obtain ⟨h₁, h₂, h₃, h₄, h₅, h₆, h₇, h₈, h₉, h₁₀, h₁₁, h₁₂⟩ := h
  exact ⟨h₁, h₂, h₃, h₄, h₅, h₆, h₇, h₈, h₉, h₁₀, h₁₁, h₁₂⟩

end Column.SameStructure

namespace Merge

theorem executed_sameStructure (columns : List Column) (raws others : List RawColumn) :
    List.Forall₂ Column.SameStructure (executed columns raws) (executed columns others) := by
  have hsame : List.Forall₂ Column.SameStructure columns columns :=
    List.forall₂_same.mpr fun c _ => .refl c
  have hone : List.Forall₂ Column.SameStructure columns (executed columns raws) :=
    forall₂_executed (fun _ _ raw h => h.withExecuted raw) hsame raws
  have hback : List.Forall₂ Column.SameStructure (executed columns raws) columns :=
    hone.flip.imp fun _ _ h => h.symm
  exact forall₂_executed (fun _ _ raw h => h.withExecuted raw) hback others

theorem getElem?_executed {columns : List Column} {raws : List RawColumn} {i : Nat}
    (h : raws.length ≤ i) : (executed columns raws)[i]? = columns[i]? := by
  fun_induction executed columns raws generalizing i with
  | case1 c columns raw raws ih =>
    cases i with
    | zero => cases h
    | succ i => exact ih (Nat.le_of_succ_le_succ h)
  | case2 columns => rfl
  | case3 raws => rfl

end Merge

namespace Annotator

variable {a : Annotator} {s : Stage} {results others : ExecutionResult}

theorem columnsOver_of_source {t : Stage} (h : s.sourceStage? = some t)
    (inner : Except SchemaError (List Column)) :
    a.columnsOver results s (some inner) = a.columnsOver others s (some inner) := by
  unfold columnsOver passedThrough
  rw [sourceColumns_of_source h, sourceColumns_of_source h]

/-- The columns are those of the chain with the driver's laid over them, since no name changes. -/
theorem columnInfo_structural (a : Annotator) (s : Stage) (results : ExecutionResult) :
    a.columnInfo (.structural s) results = a.checkDepth s >>= fun _ =>
      (Merge.executed · results.columns) <$> a.chainColumns results s := by
  refine bind_congr fun _ => ?_
  cases hc : a.chainColumns results s with
  | error e => rfl
  | ok columns =>
    have hnames : ((Merge.executed columns results.columns).map (·.name)).Nodup := by
      rw [Merge.map_executed fun _ _ => rfl]
      exact chainColumns_names_nodup hc
    exact congrArg Except.ok (dedupe_of_nodup hnames)

/-- Where some stage of the chain selects columns, the driver is not consulted. -/
theorem chainColumns_congr (h : ∃ t ∈ s.chain, t.selects) :
    a.chainColumns results s = a.chainColumns others s := by
  induction s using Stage.nested_induction with
  | step s ih _ =>
    cases hs : s.selects with
    | true => rw [chainColumns_of_selects hs, chainColumns_of_selects hs]
    | false =>
      obtain ⟨u, hu, hselects⟩ := h
      have hne : u ≠ s := by
        rintro rfl
        simp [hs] at hselects
      cases hsource : s.sourceStage? with
      | none =>
        rw [Stage.chain_of_end hsource] at hu
        exact absurd (List.mem_singleton.mp hu) hne
      | some t =>
        rw [Stage.chain_of_source hsource] at hu
        have hinner := ih t hsource ⟨u, List.mem_of_ne_of_mem hne hu, hselects⟩
        rw [chainColumns_eq, chainColumns_eq a others, hsource, Option.map_some, Option.map_some,
          hinner]
        exact columnsOver_of_source hsource _

/-- Two results of the same query give columns of the same structure or the same error, and beyond
the driver's columns they are those that there are without any. -/
theorem columnInfo_structure (h : ∃ t ∈ s.chain, t.selects) :
    (∀ results others, Agree (List.Forall₂ Column.SameStructure)
      (a.columnInfo (.structural s) results) (a.columnInfo (.structural s) others)) ∧
    ∀ results bare, bare.columns = [] →
      Agree (fun columns others => ∀ i, results.columns.length ≤ i → columns[i]? = others[i]?)
        (a.columnInfo (.structural s) results) (a.columnInfo (.structural s) bare) := by
  have hoverlaid (results others : ExecutionResult) {V : List Column → List Column → Prop}
      (hV : ∀ columns, V (Merge.executed columns results.columns)
        (Merge.executed columns others.columns)) :
      Agree V (a.columnInfo (.structural s) results) (a.columnInfo (.structural s) others) := by
    have hchain : a.chainColumns results s = a.chainColumns others s := chainColumns_congr h
    rw [columnInfo_structural, columnInfo_structural, hchain]
    refine outcomes.bind (V := Eq) (.refl (fun _ => rfl) _) fun _ _ _ => ?_
    refine Comparison.map (R := outcomes) (V := Eq) (.refl (fun _ => rfl) _) ?_
    rintro columns _ rfl
    exact hV columns
  refine ⟨fun results others => ?_, fun results bare hbare => ?_⟩
  · exact hoverlaid results others fun columns =>
      Merge.executed_sameStructure columns results.columns others.columns
  · refine hoverlaid results bare fun columns i hi => ?_
    rw [hbare, Merge.executed_nil, Merge.getElem?_executed hi]

def reopenedReport : Stage := { source := .stage priceReport }

def firstAsText : ExecutionResult where
  columns := [{ name := "p", baseType := some .text }]

theorem columnInfo_structure_of_reopenedReport :
    ∃ columns others bare,
      priceOnly.columnInfo (.structural reopenedReport) sameIdents = .ok columns ∧
      priceOnly.columnInfo (.structural reopenedReport) firstAsText = .ok others ∧
      priceOnly.columnInfo (.structural reopenedReport) {} = .ok bare ∧
      (columns.map (·.ident) = List.replicate 4 (some "driver") ∧
        others.map (·.ident) = [some "group", some "rows", none, some "declared"]) ∧
      (others.head?.map (·.baseType) = some .text ∧ bare.head?.map (·.baseType) = some .float) ∧
      List.Forall₂ Column.SameStructure columns others ∧
      ∀ i, 1 ≤ i → others[i]? = bare[i]? := by
  have hselects : ∃ t ∈ reopenedReport.chain, t.selects :=
    ⟨priceReport, List.mem_cons_of_mem _ List.mem_cons_self, rfl⟩
  have hcolumns : (priceOnly.columnInfo (.structural reopenedReport) sameIdents).toOption.map
      (·.map (·.ident)) = some (List.replicate 4 (some "driver")) := by decide +kernel
  have hothers : (priceOnly.columnInfo (.structural reopenedReport) firstAsText).toOption.map
      (fun l => (l.map (·.ident), l.head?.map (·.baseType))) =
        some ([some "group", some "rows", none, some "declared"], some .text) := by decide +kernel
  have hbare : (priceOnly.columnInfo (.structural reopenedReport) {}).toOption.map
      (·.head?.map (·.baseType)) = some (some .float) := by decide +kernel
  obtain ⟨columns, hc, hidents⟩ := exists_of_toOption_map_eq_some hcolumns
  obtain ⟨others, ho, hviews⟩ := exists_of_toOption_map_eq_some hothers
  obtain ⟨bare, hb, htype⟩ := exists_of_toOption_map_eq_some hbare
  obtain ⟨hstructure, hbeyond⟩ := columnInfo_structure (a := priceOnly) hselects
  have hsame := hstructure sameIdents firstAsText
  have htail := hbeyond firstAsText {} rfl
  rw [hc, ho] at hsame
  rw [ho, hb] at htail
  cases hsame with
  | ok hsame =>
    cases htail with
    | ok htail =>
      exact ⟨columns, others, bare, hc, ho, hb, ⟨hidents, congrArg Prod.fst hviews⟩,
        ⟨congrArg Prod.snd hviews, htype⟩, hsame, htail⟩

end Annotator

end ResultSchema
