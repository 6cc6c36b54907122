import ResultSchema.Proofs.Resolve.Selected
import ResultSchema.Proofs.Result.Annotate
import ResultSchema.Proofs.Result.Merge

/-! # Results of selecting stages

A stage that selects its columns takes nothing from its source. Each selection keeps its
place, its provenance and an ident of its own through all that is laid over its column. If
the stage is no model, its columns are those of a three-way merge.
-/

namespace ResultSchema

/-- What a stage selects one column with. -/
inductive Selection
  | breakout (b : Breakout)
  | aggregation (index : Nat) (a : Aggregation)
  | field (clause : Clause)

namespace Selection

/-- The column has the provenance and the own ident of the selection. -/
def Shown : Selection → Column → Prop
  | breakout b, c => c.source = some .breakout ∧ ∀ ident ∈ b.ident, c.ident = some ident
  | aggregation index a, c =>
    c.source = some .aggregation ∧ c.aggregationIndex = some index ∧
      c.fieldRef = some (.aggregation index) ∧ ∀ ident ∈ a.ident, c.ident = some ident
  | field _, c => c.source = some .fields

variable {selection : Selection} {c d : Column}

theorem Shown.keep (h : selection.Shown c) (hsource : d.source = c.source)
    (hindex : d.aggregationIndex = c.aggregationIndex) (href : d.fieldRef = c.fieldRef)
    (hident : c.ownsIdent → c.ident.isSome → d.ident = c.ident) : selection.Shown d := by
  cases selection with
  | breakout b =>
    obtain ⟨hs, hi⟩ := h
    refine ⟨hsource.trans hs, fun ident hb => ?_⟩
    rw [hident (by simp [Column.ownsIdent, hs]) (by simp [hi ident hb]), hi ident hb]
  | aggregation index a =>
    obtain ⟨hs, hx, hr, hi⟩ := h
    refine ⟨hsource.trans hs, hindex.trans hx, href.trans hr, fun ident ha => ?_⟩
    rw [hident (by simp [Column.ownsIdent, hs]) (by simp [hi ident ha]), hi ident ha]
  | field clause => exact hsource.trans h

theorem Shown.withDeclared (h : selection.Shown c) (declared : Column) :
    selection.Shown (c.withDeclared declared) :=
  h.keep rfl rfl rfl fun howns hident => c.mergedIdent_of_owned howns hident declared.ident

theorem Shown.withExecuted (h : selection.Shown c) (raw : RawColumn) :
    selection.Shown (c.withExecuted raw) :=
  h.keep rfl rfl rfl fun howns hident => c.mergedIdent_of_owned howns hident raw.ident?

end Selection

namespace Stage

variable {lexicon : Lexicon} {s : Stage} {columns : List Column}

/-- The selections of a stage in the order of their columns: breakouts, aggregations with
their positions, listed fields. -/
def selections (s : Stage) : List Selection :=
  s.breakouts.map .breakout ++ s.aggregations.zipIdx.map (fun (a, i) => .aggregation i a)
    ++ s.fields.map .field

theorem length_selections (s : Stage) : s.selections.length =
    s.breakouts.length + s.aggregations.length + s.fields.length := by
  simp [selections, Nat.add_assoc]

theorem columns_shown (h : s.columns lexicon = .ok columns) :
    List.Forall₂ Selection.Shown s.selections columns := by
  obtain ⟨breakouts, aggregations, fields, hb, ha, hf, rfl⟩ := Scope.columns_eq_ok_iff.mp h
  rw [scope_stage] at hb ha hf
  have hbreakouts : List.Forall₂ Selection.Shown (s.breakouts.map .breakout) breakouts := by
    refine List.forall₂_map_left_iff.mpr ((mapM_eq_ok_iff.mp hb).imp fun b c hc => ?_)
    obtain ⟨d, -, hd⟩ := bind_eq_ok_iff.mp hc
    cases hd
    exact ⟨rfl, fun ident hident => by simp [Option.mem_def.mp hident]⟩
  have haggregations : List.Forall₂ Selection.Shown
      (s.aggregations.zipIdx.map fun (a, i) => .aggregation i a) aggregations := by
    refine List.forall₂_map_left_iff.mpr ((mapM_eq_ok_iff.mp ha).imp fun a c hc => ?_)
    obtain ⟨description, -, hd⟩ := bind_eq_ok_iff.mp hc
    cases hd
    exact ⟨rfl, rfl, rfl, fun ident hident => hident⟩
  have hfields : List.Forall₂ Selection.Shown (s.fields.map .field) fields := by
    refine List.forall₂_map_left_iff.mpr ((mapM_eq_ok_iff.mp hf).imp fun clause c hc => ?_)
    obtain ⟨d, -, hd⟩ := bind_eq_ok_iff.mp hc
    cases hd
    exact rfl
  exact forall₂_dedupe (fun _ _ _ hc => hc.keep rfl rfl rfl fun _ _ => rfl)
    (List.rel_append (List.rel_append hbreakouts haggregations) hfields)

end Stage

namespace Annotator

variable {a : Annotator} {s : Stage} {results : ExecutionResult} {columns : List Column}

theorem chainColumns_of_selects (hselects : s.selects) : a.chainColumns results s =
    s.columns a.lexicon >>= fun selected =>
      (if s.isModel then a.modelColumns s (Merge.declared selected s.metadata)
        else pure (Merge.declared selected s.metadata)) >>= fun columns =>
      pure (dedupe columns) := by
  rw [chainColumns_eq, columnsOver_eq]
  cases hs : s.columns a.lexicon with
  | error e => rfl
  | ok selected =>
    have hempty : selected.isEmpty = false := by simp [Stage.isEmpty_columns hs, hselects]
    show (pure selected : Except SchemaError _) >>= _ = pure selected >>= _
    rw [pure_bind, pure_bind, hempty]
    rfl

/-- The columns of a selecting stage are its selections, in their order. -/
theorem columnInfo_shown (hselects : s.selects)
    (h : a.columnInfo (.structural s) results = .ok columns) :
    columns.length = s.breakouts.length + s.aggregations.length + s.fields.length ∧
      List.Forall₂ Selection.Shown s.selections columns := by
  obtain ⟨-, chain, hchain, rfl⟩ := columnInfo_structural_eq_ok_iff.mp h
  rw [chainColumns_eq] at hchain
  obtain ⟨selected, own, modelled, hs, hown, hm, rfl⟩ := columnsOver_eq_ok_iff.mp hchain
  rw [if_pos hselects] at hown
  have hrenamed {l : List Column} (hl : List.Forall₂ Selection.Shown s.selections l) :
      List.Forall₂ Selection.Shown s.selections (dedupe l) :=
    forall₂_dedupe (fun _ _ _ hc => hc.keep rfl rfl rfl fun _ _ => rfl) hl
  have hdeclared : List.Forall₂ Selection.Shown s.selections own := by
    rw [hown]
    exact Merge.forall₂_declared (fun _ _ d _ hc => hc.withDeclared d) (Stage.columns_shown hs)
  have hmodelled : List.Forall₂ Selection.Shown s.selections modelled :=
    forall₂_modelled (fun _ c ident howns hc =>
      hc.keep rfl rfl rfl fun h => absurd h (by simp [howns])) hdeclared hm
  have hshown := hrenamed
    (Merge.forall₂_executed (fun _ _ raw hc => hc.withExecuted raw) (hrenamed hmodelled)
      results.columns)
  exact ⟨hshown.length_eq.symm.trans s.length_selections, hshown⟩

def priceOnly : Annotator where
  lexicon := {
    catalog := fun id =>
      if id = 2 then
        some {
          id
          name := "price"
          displayName := "Price"
          baseType := .float
          ident := some "f-price" }
      else none
    humanizer := id }

def priceReport : Stage where
  source := .table 1
  metadata := [{ name := "price", ident := some "declared", fieldRef := some (.field ⟨.id 2, {}⟩) },
    { fieldRef := some (.aggregation 0), ident := some "declared" }, {}, {}]
  breakouts := [{ clause := .field ⟨.id 2, {}⟩, ident := some "group" }]
  aggregations := [{ clause := .call "count" [], ident := some "rows" },
    { clause := .call "sum" [.field ⟨.id 2, {}⟩], name := some "price" }]
  fields := [.field ⟨.id 2, {}⟩]

def sameIdents : ExecutionResult where
  columns := List.replicate 4 { name := "price", extra := .ofList [("ident", .str "driver")] }

theorem columnInfo_shown_of_priceReport :
    ∃ columns, priceOnly.columnInfo
        (.structural { priceReport with card := some { entityId := some "e", model := true } })
        sameIdents = .ok columns ∧
      columns.map (fun c => (c.name, c.ident)) = [("price", some "group"), ("count", some "rows"),
        ("price_2", some "driver"), ("price_3", some "driver")] ∧
      List.Forall₂ Selection.Shown priceReport.selections columns := by
  have h : (priceOnly.columnInfo
      (.structural { priceReport with card := some { entityId := some "e", model := true } })
      sameIdents).toOption.map (·.map fun c => (c.name, c.ident)) =
        some [("price", some "group"), ("count", some "rows"), ("price_2", some "driver"),
          ("price_3", some "driver")] := by decide +kernel
  obtain ⟨columns, hc, hview⟩ := exists_of_toOption_map_eq_some h
  exact ⟨columns, hc, hview, (columnInfo_shown rfl hc).2⟩

/-- Without a model, the columns of a selecting stage are the selected ones merged with what
is declared and with what the driver reports; names need no further change. -/
theorem columnInfo_eq_merged (hselects : s.selects) (hmodel : s.isModel = false)
    (hdepth : s.depth ≤ a.config.maxStageDepth) : a.columnInfo (.structural s) results =
      (Merge.all · s.metadata results.columns) <$> s.columns a.lexicon := by
  rw [columnInfo, checkDepth_eq_ok_iff.mpr hdepth, chainColumns_of_selects hselects, hmodel]
  cases hs : s.columns a.lexicon with
  | error e => rfl
  | ok selected =>
    have hdeclared : ((Merge.declared selected s.metadata).map (·.name)).Nodup := by
      rw [Merge.map_declared fun _ _ => rfl]
      exact Stage.names_columns_nodup hs
    have hall : ((Merge.all selected s.metadata results.columns).map (·.name)).Nodup := by
      unfold Merge.all
      rwa [Merge.map_executed fun _ _ => rfl]
    show Except.ok (dedupe (Merge.executed (dedupe (Merge.declared selected s.metadata)) _)) = _
    rw [dedupe_of_nodup hdeclared]
    exact congrArg Except.ok (dedupe_of_nodup hall)

theorem columnInfo_eq_merged_of_priceReport :
    ∃ selected, priceReport.columns priceOnly.lexicon = .ok selected ∧
      (selected.map (·.name)) = ["price", "count", "price_2", "price_3"] ∧
      priceOnly.columnInfo (.structural priceReport) sameIdents =
        .ok (Merge.all selected priceReport.metadata sameIdents.columns) := by
  have h : (priceReport.columns priceOnly.lexicon).toOption.map (·.map (·.name)) =
      some ["price", "count", "price_2", "price_3"] := by decide +kernel
  obtain ⟨selected, hs, hnames⟩ := exists_of_toOption_map_eq_some h
  refine ⟨selected, hs, hnames, ?_⟩
  rw [columnInfo_eq_merged rfl rfl (by decide), hs]
  rfl

end Annotator

end ResultSchema
