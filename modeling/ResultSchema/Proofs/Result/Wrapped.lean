import ResultSchema.Proofs.Result.Covered
import ResultSchema.Proofs.Result.Native
import ResultSchema.Proofs.Result.Structure

/-! # A native query inside a stage

A stage that only reads a native query lays what the driver reports over columns that were made
from the same report. That changes nothing, unless the driver gives a label or an ident to a
column of no known field, whose own column leaves them among the extra keys.
-/

namespace ResultSchema

/-- The driver gives the column no label and no ident, and no type that is known to be unknown. -/
structure RawColumn.Unadorned (raw : RawColumn) : Prop where
  effectiveType : raw.effectiveType ≠ some .wildcard
  label : raw.label? = none
  ident : raw.ident? = none

namespace RawColumn

variable (raw : RawColumn)

theorem get?_databaseEntry {key : String} (h : key ≠ "database_type") :
    (OrderedMap.ofList raw.databaseEntry).get? key = none := by
  unfold databaseEntry
  cases raw.databaseType with
  | none => rfl
  | some t =>
    refine (OrderedMap.get?_insert .empty _ _ _).trans ?_
    rw [if_neg h]
    rfl

/-- Of all entries that the driver reports, the plain ones are there already. -/
theorem insertAll_reported : ((OrderedMap.ofList raw.databaseEntry).union raw.extra).insertAll
    (raw.databaseEntry ++ raw.extra.entries.filter isPlain) =
      (OrderedMap.ofList raw.databaseEntry).union raw.extra := by
  refine OrderedMap.insertAll_eq_self (funext fun key => ?_)
  have hsplit : OrderedMap.ofList (raw.databaseEntry ++ raw.extra.entries.filter isPlain) =
      (OrderedMap.ofList raw.databaseEntry).insertAll (raw.extra.entries.filter isPlain) :=
    OrderedMap.insertAll_append ..
  rw [OrderedMap.get?_insertAll, hsplit, OrderedMap.get?_insertAll,
    OrderedMap.get?_ofList_filter, OrderedMap.get?_union]
  cases raw.extra.get? key with
  | none => exact Option.or_self
  | some v =>
    rw [Option.filter_some]
    cases hplain : isPlain (key, v) with
    | true => rfl
    | false =>
      -- A type of the database that the driver reports twice is a plain entry the second time.
      have hkey : key ≠ "database_type" := by
        rintro rfl
        cases hplain
      rw [raw.get?_databaseEntry hkey]
      rfl

end RawColumn

theorem Lexicon.column_source {lexicon : Lexicon} {id : Int64} {c : Column}
    (h : lexicon.column id = .ok c) : c.source = none := by
  obtain ⟨f, -, h⟩ := bind_eq_ok_iff.mp h
  obtain ⟨name, -, h⟩ := bind_eq_ok_iff.mp h
  cases h
  rfl

namespace Native

variable {lexicon : Lexicon} {raw : RawColumn} {unique : String} {c : Column}

theorem ofCatalog_covers {id : Int64} (h : ofCatalog lexicon raw id unique = .ok c) :
    c.Covers raw := by
  obtain ⟨field, hfield, h⟩ := bind_eq_ok_iff.mp h
  cases h
  have hcovers := Column.withExecuted_covers (field.referredBy { id := .id id }) raw
  refine ⟨hcovers.effectiveType, hcovers.baseType, hcovers.id, hcovers.label, hcovers.extra, ?_⟩
  have howns : field.ownsIdent = false := by
    rw [Column.ownsIdent, Lexicon.column_source hfield]
    rfl
  have hident : (field.referredBy { id := .id id }).mergedIdent raw.ident? =
      raw.ident?.or field.ident := by
    rw [Column.mergedIdent_eq]
    show (if field.ownsIdent then _ else _) = _
    rw [howns]
    rfl
  show raw.ident?.or (Option.or (Column.mergedIdent _ _) _) = Option.or (Column.mergedIdent _ _) _
  rw [hident, Option.or_assoc, ← Option.or_assoc, Option.or_self]

theorem ofName_covers (hid : raw.id = none) (h : raw.Unadorned) (sample : Option Json) :
    (ofName raw sample unique).Covers raw where
  effectiveType := by
    unfold ofName
    dsimp only
    rw [BaseType.known?_best, BaseType.known?_reported h.effectiveType]
  baseType := BaseType.best_again _ _
  id := by rw [hid]; rfl
  label := by rw [h.label]; rfl
  extra := raw.insertAll_reported
  ident := by rw [h.ident]; rfl

theorem column_covers {sample : Option Json} (hplain : raw.id = none → raw.Unadorned)
    (h : column lexicon raw sample unique = .ok c) : c.Covers raw := by
  unfold column at h
  cases hid : raw.id with
  | some id =>
    rw [hid] at h
    exact ofCatalog_covers h
  | none =>
    rw [hid] at h
    cases h
    exact ofName_covers hid (hplain hid) sample

/-- Laying the report over the columns that are made from it changes nothing. -/
theorem executed_columns {results : ExecutionResult} {columns : List Column}
    (hplain : ∀ raw ∈ results.columns, raw.id = none → raw.Unadorned)
    (h : Native.columns lexicon results = .ok columns) :
    Merge.executed columns results.columns = columns := by
  have hcovers : List.Forall₂ (fun raw c => Column.Covers c raw) results.columns columns := by
    refine ((List.forall₂_and_left _ _).mpr ⟨hplain, forall₂_columns h⟩).imp ?_
    rintro raw c ⟨hraw, _, _, hc⟩
    exact column_covers hraw hc
  exact Merge.executed_of_covers hcovers

theorem columns_of_nil {results : ExecutionResult} (h : results.columns = []) :
    Native.columns lexicon results = (fun _ => []) <$> Annotator.checkWidth [] results := by
  have hcheck : Native.checkWidth results = Annotator.checkWidth [] results := by
    unfold Native.checkWidth Annotator.checkWidth ExecutionResult.columnNames
    rw [h]
    rfl
  unfold Native.columns
  rw [hcheck, h]
  cases Annotator.checkWidth [] results <;> rfl

end Native

namespace Annotator

variable {a : Annotator} {results : ExecutionResult}

abbrev wrapper (query : Json) (expressions : OrderedMap NamedExpression) : Stage :=
  { source := .native query, expressions }

variable (query : Json) (expressions : OrderedMap NamedExpression)

theorem columnInfo_wrapper (hdepth : 1 ≤ a.config.maxStageDepth)
    (hplain : ∀ raw ∈ results.columns, raw.id = none → raw.Unadorned) :
    a.columnInfo (.structural (wrapper query expressions)) results = a.reported results := by
  have hlimit : a.checkDepth (wrapper query expressions) = .ok () := checkDepth_eq_ok_iff.mpr hdepth
  have hchain : a.chainColumns results (wrapper query expressions) = dedupe <$> a.reported results :=
    chainColumns_of_not_selects rfl rfl rfl
  rw [columnInfo_structural, hlimit, hchain, ok_bind]
  unfold reported
  split
  · rename_i hraws
    rw [List.isEmpty_iff.mp hraws]
    rfl
  · cases hc : Native.columns a.lexicon results with
    | error e => rfl
    | ok columns =>
      show Except.ok (Merge.executed (dedupe columns) results.columns) = .ok columns
      rw [dedupe_of_nodup (Native.names_columns_nodup hc), Native.executed_columns hplain hc]

/-- A native query has the same result, or fails with the same error, when a stage around it adds
nothing. -/
theorem annotate_wrapper (hdepth : 1 ≤ a.config.maxStageDepth)
    (hplain : ∀ raw ∈ results.columns, raw.id = none → raw.Unadorned) :
    a.annotate (.structural (wrapper query expressions)) results =
      a.annotate (.native query) results := by
  unfold annotate
  rw [columnInfo_wrapper query expressions hdepth hplain]
  cases hraws : results.columns with
  | cons raw raws =>
    have hreported : a.reported results = Native.columns a.lexicon results := by
      rw [reported, hraws]
      rfl
    rw [hreported]
    rfl
  | nil =>
    have hnative : a.columnInfo (.native query) results =
        (fun _ => []) <$> checkWidth [] results := Native.columns_of_nil hraws
    rw [reported_of_nil hraws, hnative, ok_bind]
    cases hcheck : checkWidth [] results with
    | error e => rfl
    | ok _ =>
      show _ = checkWidth [] results >>= _
      rw [hcheck]

/-- The label of a column of no known field is only taken up by the stage around the query. -/
example : [Query.native .null, .structural (wrapper .null .empty)].map (fun q =>
      (annotate { lexicon := ⟨fun _ => none, id⟩ } q { columns := [
        { name := "total", extra := .ofList [("display_name", .str "Total")] }] }).toOption.map
          (·.columns.map (·.displayName))) = [some ["total"], some ["Total"]] := by decide +kernel

def twoPrices : ExecutionResult where
  columns := [
    { name := "price", id := some 2, effectiveType := some .wildcard,
      extra := .ofList [("display_name", .str "Net"), ("ident", .str "net")] },
    { name := "price", databaseType := some "int4",
      extra := .ofList [("database_type", .str "integer"), ("ident", .null)] }]
  rows := [[.null, .int 3]]

def flatPrices : Annotator := { priceOnly with config := { maxStageDepth := 1 } }

theorem annotate_wrapper_of_twoPrices :
    1 ≤ flatPrices.config.maxStageDepth ∧
      (∀ raw ∈ twoPrices.columns, raw.id = none → raw.Unadorned) ∧
      ∃ r, flatPrices.annotate (.native .null) twoPrices = .ok r ∧
        r.columns.map (fun c => (c.name, c.displayName, c.ident, c.effectiveType)) =
          [("price", "Net", some "net", some .float),
            ("price_2", "price", some "native__price_2", some .integer)] ∧
        flatPrices.annotate (.structural (wrapper .null .empty)) twoPrices = .ok r := by
  have hplain : ∀ raw ∈ twoPrices.columns, raw.id = none → raw.Unadorned := by
    intro raw hraw hid
    rcases List.mem_pair.mp hraw with rfl | rfl
    · cases hid
    · exact ⟨nofun, rfl, rfl⟩
  have h : (flatPrices.annotate (.native .null) twoPrices).toOption.map
      (·.columns.map fun c => (c.name, c.displayName, c.ident, c.effectiveType)) =
        some [("price", "Net", some "net", some .float),
          ("price_2", "price", some "native__price_2", some .integer)] := by decide +kernel
  obtain ⟨r, hr, hview⟩ := exists_of_toOption_map_eq_some h
  refine ⟨Nat.le_refl 1, hplain, r, hr, hview, ?_⟩
  rw [annotate_wrapper _ _ (Nat.le_refl 1) hplain, hr]

end Annotator

end ResultSchema
