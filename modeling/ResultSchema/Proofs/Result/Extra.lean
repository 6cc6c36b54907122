import ResultSchema.Proofs.Resolve.Extra
import ResultSchema.Proofs.Result.Count

/-! # Extra keys of result columns

The extra keys of a result column come from declared columns and from the driver. They are
keys that the descriptor has no field for exactly when those are that the driver reports at
the positions of the columns.
-/

namespace ResultSchema

namespace RawColumn

/-- The extra keys that a column takes over. A column that is made from a name only takes all
of them. -/
def takenKeys (raw : RawColumn) (made : Bool) : List String :=
  if made && raw.id.isNone then raw.extra.keys
  else (raw.extra.entries.filter isPlain).map Prod.fst

def ExtraApart (raw : RawColumn) (made : Bool) : Prop :=
  ∀ key ∈ raw.takenKeys made, key ∉ Column.modelledKeys

instance (raw : RawColumn) (made : Bool) : Decidable (raw.ExtraApart made) :=
  inferInstanceAs (Decidable (∀ key ∈ raw.takenKeys made, _))

variable {raw : RawColumn}

theorem ExtraApart.laidOver (h : raw.ExtraApart true) : raw.ExtraApart false := by
  intro key hkey
  refine h key ?_
  unfold takenKeys at hkey ⊢
  split
  · exact (List.filter_sublist.map Prod.fst).subset hkey
  · exact hkey

theorem databaseEntry_apart {key : String} (h : key ∈ raw.databaseEntry.map Prod.fst) :
    key ∉ Column.modelledKeys := by
  unfold databaseEntry at h
  cases ht : raw.databaseType with
  | none => simp [ht] at h
  | some t =>
    have hkey : key = "database_type" := by simpa [ht] using h
    rw [hkey]
    decide

end RawColumn

namespace Column

variable {c d : Column} {raw : RawColumn}

theorem withDeclared_extraApart_iff :
    (c.withDeclared d).ExtraApart ↔ c.ExtraApart ∧ d.ExtraApart := by
  simp only [ExtraApart, withDeclared, OrderedMap.mem_keys_union, or_imp, forall_and]

theorem withExecuted_extraApart_iff :
    (c.withExecuted raw).ExtraApart ↔ c.ExtraApart ∧ raw.ExtraApart false := by
  simp only [ExtraApart, withExecuted, OrderedMap.mem_keys_insertAll, or_imp, forall_and,
    and_iff_left fun _ => RawColumn.databaseEntry_apart]
  rfl

end Column

namespace Merge

variable {columns declaredColumns : List Column}

theorem declared_extraApart_iff (h : ∀ d ∈ declaredColumns, d.ExtraApart) :
    (∀ c ∈ declared columns declaredColumns, c.ExtraApart) ↔ ∀ c ∈ columns, c.ExtraApart := by
  refine forall_mem_iff_of_forall₂ (forall₂_declared (fun a c d hd hac => ?_)
    (List.forall₂_same.mpr fun _ _ => Iff.rfl))
  rw [Column.withDeclared_extraApart_iff, and_iff_left (h d hd), hac]

theorem overlaid_extraApart_iff (h : ∀ d ∈ declaredColumns, d.ExtraApart) :
    (∀ c ∈ overlaid columns declaredColumns, c.ExtraApart) ↔ ∀ c ∈ columns, c.ExtraApart := by
  refine forall_mem_iff_of_forall₂ (forall₂_overlaid (fun a c d hd hac => ?_)
    (List.forall₂_same.mpr fun _ _ => Iff.rfl))
  rw [Column.withDeclared_extraApart_iff, and_iff_left (h d hd), hac]

theorem executed_extraApart_iff (columns : List Column) (raws : List RawColumn) :
    (∀ c ∈ executed columns raws, c.ExtraApart) ↔
      (∀ c ∈ columns, c.ExtraApart) ∧ ∀ raw ∈ raws.take columns.length, raw.ExtraApart false := by
  fun_induction executed columns raws with
  | case1 c columns raw raws ih =>
    simp only [List.forall_mem_cons, List.length_cons, List.take_succ_cons, ih,
      Column.withExecuted_extraApart_iff]
    exact and_and_and_comm
  | case2 columns => simp
  | case3 raws => simp

end Merge

namespace Native

variable {lexicon : Lexicon} {results : ExecutionResult} {columns : List Column}

theorem column_extraApart_iff {raw : RawColumn} {sample : Option Json} {unique : String}
    {c : Column} (h : column lexicon raw sample unique = .ok c) :
    c.ExtraApart ↔ raw.ExtraApart true := by
  unfold column at h
  cases hid : raw.id with
  | none =>
    rw [hid] at h
    cases h
    have htaken : raw.takenKeys true = raw.extra.keys := by simp [RawColumn.takenKeys, hid]
    have hempty (key : String) : key ∉ (OrderedMap.empty : OrderedMap Json).keys := nofun
    simp only [Column.ExtraApart, RawColumn.ExtraApart, htaken, ofName, OrderedMap.mem_keys_union,
      OrderedMap.ofList, OrderedMap.mem_keys_insertAll, hempty, false_or, or_imp, forall_and,
      and_iff_right fun _ => RawColumn.databaseEntry_apart]
  | some id =>
    rw [hid] at h
    obtain ⟨d, hd, h⟩ := bind_eq_ok_iff.mp h
    cases h
    -- A column of the catalog has nothing extra, so the driver's column is laid over it as usual.
    have htaken : raw.takenKeys true = raw.takenKeys false := by simp [RawColumn.takenKeys, hid]
    have hcatalog : (d.referredBy { id := .id id }).ExtraApart :=
      (Column.extraApart_of_extra_empty (Lexicon.extra_column hd) :)
    have hlaid : ((d.referredBy { id := .id id }).withExecuted raw).ExtraApart ↔
        raw.ExtraApart false := by
      rw [Column.withExecuted_extraApart_iff, and_iff_right hcatalog]
    unfold RawColumn.ExtraApart at hlaid ⊢
    rw [htaken]
    exact hlaid

theorem columns_extraApart_iff (h : Native.columns lexicon results = .ok columns) :
    (∀ c ∈ columns, c.ExtraApart) ↔ ∀ raw ∈ results.columns, raw.ExtraApart true := by
  have hmap : columns.map Column.ExtraApart = results.columns.map (·.ExtraApart true) := by
    rw [map_columns (k := (·.ExtraApart true) ∘ Prod.fst)
      (fun _ _ _ _ hc => propext (column_extraApart_iff hc)) h, ← List.map_map,
      List.map_fst_zip (by simp [ExecutionResult.columnNames])]
  exact forall_mem_of_map_eq hmap id

end Native

theorem Stage.columns_extraApart {lexicon : Lexicon} {s : Stage} {columns : List Column}
    (hdeclared : s.Declares Column.ExtraApart) (h : s.columns lexicon = .ok columns) :
    ∀ c ∈ columns, c.ExtraApart :=
  columns_extrasIn (Q := fun extra => ∀ key ∈ extra.keys, key ∉ Column.modelledKeys)
    (fun _ h => nomatch h) hdeclared columns h

namespace Annotator

variable {a : Annotator} {s : Stage} {results : ExecutionResult} {columns : List Column}

theorem reported_extraApart_iff (h : a.reported results = .ok columns) :
    (∀ c ∈ columns, c.ExtraApart) ↔ ∀ raw ∈ results.columns, raw.ExtraApart true := by
  unfold reported at h
  split at h
  · rename_i hnone
    cases h
    simp [List.isEmpty_iff.mp hnone]
  · exact Native.columns_extraApart_iff h

theorem sourceColumns_extraApart_iff (ht : s.sourceStage? = none)
    (h : a.sourceColumns results s none = .ok columns) : (∀ c ∈ columns, c.ExtraApart) ↔
      (s.source.isOutside → ∀ raw ∈ results.columns, raw.ExtraApart true) := by
  unfold sourceColumns at h
  cases hs : s.source with
  | stage t => simp [Stage.sourceStage?_eq_some_iff.mpr hs] at ht
  | native query =>
    rw [hs] at h
    exact (reported_extraApart_iff h).trans (by simp [Source.isOutside])
  | table id =>
    rw [hs] at h
    obtain ⟨reported, hreported, rfl⟩ := map_eq_ok_iff.mp h
    have hapart := reported_extraApart_iff hreported
    rw [List.forall_mem_map]
    exact hapart.trans (by simp [Source.isOutside])
  | none =>
    rw [hs] at h
    cases h
    simp [Source.isOutside]

theorem passedThrough_extraApart_iff {inner : Option (Except SchemaError (List Column))}
    (hdeclared : ∀ d ∈ s.metadata, d.ExtraApart)
    (h : a.passedThrough results s inner = .ok columns) :
    ∃ read, a.sourceColumns results s inner = .ok read ∧
      ((∀ c ∈ columns, c.ExtraApart) ↔ ∀ c ∈ read, c.ExtraApart) := by
  obtain ⟨read, hread, h⟩ := bind_eq_ok_iff.mp h
  cases h
  refine ⟨read, hread, ?_⟩
  cases read with
  | nil => exact iff_of_true hdeclared (List.forall_mem_nil _)
  | cons c read => exact Merge.overlaid_extraApart_iff hdeclared

/-- The columns of a stage are apart exactly when those of the driver are, where these come out
of its chain. -/
theorem chainColumns_extraApart_iff (hdeclared : s.Declares Column.ExtraApart)
    (h : a.chainColumns results s = .ok columns) : (∀ c ∈ columns, c.ExtraApart) ↔
      (s.passesOutside → ∀ raw ∈ results.columns, raw.ExtraApart true) := by
  -- A selecting stage ends the chain: the driver's columns do not come through it.
  induction s using Stage.nested_induction generalizing columns with
  | step s hsource _ =>
    rw [chainColumns_eq] at h
    obtain ⟨selected, own, modelled, hselected, hown, hmodelled, rfl⟩ :=
      columnsOver_eq_ok_iff.mp h
    have hmap : modelled.map (·.ExtraApart) = own.map (·.ExtraApart) :=
      map_modelled (fun _ _ => rfl) hmodelled
    have hmodel : (∀ c ∈ modelled, c.ExtraApart) ↔ ∀ c ∈ own, c.ExtraApart :=
      forall_mem_of_map_eq hmap id
    rw [forall_mem_dedupe fun _ _ => rfl, hmodel]
    cases hselects : s.selects with
    | true =>
      rw [if_pos hselects] at hown
      rw [hown, Merge.declared_extraApart_iff fun d hd => hdeclared.own hd,
        Stage.passesOutside_of_selects hselects]
      exact iff_of_true (Stage.columns_extraApart hdeclared hselected) nofun
    | false =>
      rw [if_neg (by simp [hselects])] at hown
      obtain ⟨read, hread, hpassed⟩ :=
        passedThrough_extraApart_iff (fun d hd => hdeclared.own hd) hown
      rw [hpassed]
      cases ht : s.sourceStage? with
      | some t =>
        rw [ht, Option.map_some, sourceColumns_of_source ht] at hread
        obtain ⟨inner, hinner, rfl⟩ := map_eq_ok_iff.mp hread
        rw [List.forall_mem_map, Stage.passesOutside_of_source hselects ht]
        exact hsource t ht (hdeclared.source ht) hinner
      | none =>
        rw [ht] at hread
        rw [Stage.passesOutside_of_end hselects ht]
        exact sourceColumns_extraApart_iff ht hread

theorem take_of_passesOutside {q : Query} (hq : q.passesOutside)
    (h : a.columnInfo q results = .ok columns) :
    results.columns.take columns.length = results.columns := by
  by_cases hnone : results.columns = []
  · rw [hnone, List.take_nil]
  refine List.take_of_length_le (Nat.le_of_eq ?_)
  cases q with
  | native query => exact (Native.length_columns h).symm
  | structural s =>
    have hcount : results.columns.length ≠ 0 := by simpa using hnone
    rw [length_columnInfo h, Stage.columnCount_of_passesOutside hq hcount]

theorem columnInfo_extraApart_iff {q : Query} (hdeclared : q.Declares Column.ExtraApart)
    (h : a.columnInfo q results = .ok columns) : (∀ c ∈ columns, c.ExtraApart) ↔
      ∀ raw ∈ results.columns.take columns.length, raw.ExtraApart q.passesOutside := by
  have htake := fun hq => take_of_passesOutside (q := q) hq h
  cases q with
  | native query =>
    rw [htake rfl]
    exact Native.columns_extraApart_iff h
  | structural s =>
    obtain ⟨-, chain, hchain, rfl⟩ := columnInfo_structural_eq_ok_iff.mp h
    have hs : s.Declares Column.ExtraApart := hdeclared s rfl
    rw [length_dedupe, Merge.length_executed] at htake ⊢
    rw [forall_mem_dedupe fun _ _ => rfl, Merge.executed_extraApart_iff,
      chainColumns_extraApart_iff hs hchain]
    show _ ↔ ∀ raw ∈ results.columns.take chain.length, raw.ExtraApart s.passesOutside
    cases hpasses : s.passesOutside with
    | false => simp
    | true =>
      rw [htake hpasses]
      exact ⟨fun h => h.1 rfl, fun h => ⟨fun _ => h, fun raw hraw => (h raw hraw).laidOver⟩⟩

/-- In an annotated query that declares only columns with extra keys apart, the extra keys of
the result columns are apart, and so no key is written twice, exactly when the driver reports
no other keys at their positions. -/
theorem annotate_extraApart_iff {q : Query} {r : AnnotatedResult}
    (hdeclared : q.Declares Column.ExtraApart) (h : a.annotate q results = .ok r) :
    (∀ c ∈ r.columns, c.ExtraApart ∧ (c.entries.map Prod.fst).Nodup) ↔
      ∀ raw ∈ results.columns.take r.columns.length, raw.ExtraApart q.passesOutside := by
  rw [← columnInfo_extraApart_iff hdeclared (annotate_eq_ok_iff.mp h).1]
  exact ⟨fun hr c hc => (hr c hc).1, fun hr c hc => ⟨hr c hc, Column.keys_entries_nodup (hr c hc)⟩⟩

def rowCount : Json :=
  .obj [("type", .str "query"), ("query", .obj [("source-table", .int 1),
    ("aggregation", .arr [.arr [.str "count"]]),
    ("source-metadata", .arr [.obj [("name", .str "count"),
      ("field_ref", .arr [.str "aggregation", .int 0]), ("remark", .str "declared")]])])]

def countRows : Query :=
  .structural {
    source := .table 1
    metadata := [{
      name := "count"
      fieldRef := some (.aggregation 0)
      extra := .ofList [("remark", .str "declared")] }]
    aggregations := [{ clause := .call "count" [] }] }

theorem read_rowCount : Query.read rowCount 8 = .ok countRows := rfl

def labelledCount : ExecutionResult where
  columns := [{
    name := "count"
    extra := .ofList [("display_name", .str "Rows"), ("ident", .str "driver"), ("remark", .null)] }]

theorem annotate_extraApart_iff_of_labelledCount :
    ∃ r, noFields.annotate countRows labelledCount = .ok r ∧
      r.columns.map (fun c => (c.displayName, c.ident, c.extra.entries)) =
        [("Rows", some "driver", [("remark", .null)])] ∧
      ∀ c ∈ r.columns, c.ExtraApart ∧ (c.entries.map Prod.fst).Nodup := by
  have h : (noFields.annotate countRows labelledCount).toOption.map (fun r =>
      r.columns.map fun c => (c.displayName, c.ident, c.extra.entries)) =
        some [("Rows", some "driver", [("remark", .null)])] := by decide +kernel
  obtain ⟨r, hr, hview⟩ := exists_of_toOption_map_eq_some h
  have hdriver : ∀ raw ∈ labelledCount.columns, raw.ExtraApart countRows.passesOutside := by decide
  exact ⟨r, hr, hview, (annotate_extraApart_iff (Query.declares_of_read read_rowCount) hr).mpr
    fun raw hraw => hdriver raw (List.mem_of_mem_take hraw)⟩

def sourcedCount : ExecutionResult where
  columns := [{ name := "count", extra := .ofList [("source", .str "fields")] }]

/-- The source that the driver reports is written after that of the column. -/
theorem annotate_repeats_source :
    ∃ r c, noFields.annotate countRows sourcedCount = .ok r ∧ r.columns = [c] ∧
      c.source = some .aggregation ∧ c.extra.get? "source" = some (.str "fields") ∧
      ¬ c.ExtraApart ∧ ¬ (c.entries.map Prod.fst).Nodup := by
  have h : (noFields.annotate countRows sourcedCount).toOption.map (fun r =>
      r.columns.map fun c => (c.source, c.extra.get? "source", decide c.ExtraApart,
        decide (c.entries.map Prod.fst).Nodup)) =
      some [(some .aggregation, some (.str "fields"), false, false)] := by decide +kernel
  obtain ⟨r, hr, hview⟩ := exists_of_toOption_map_eq_some h
  obtain ⟨c, hc, hview⟩ := List.map_eq_singleton_iff.mp hview
  simp only [Prod.mk.injEq, decide_eq_false_iff_not] at hview
  exact ⟨r, c, hr, hc, hview⟩

end Annotator

end ResultSchema
