import ResultSchema.Proofs.Column.Extra
import ResultSchema.Proofs.Reference.RoundTrip

/-! # Column descriptors are read back as they were written

Every fact is read from the entry that was written for it, and the extra entries are read as extra
again when none of them has the key of a fact. Descriptors that were read can be written so.
-/

namespace ResultSchema

namespace Json

variable {α : Type} {read : Json → Option α}

theorem optional_of_read {v : Json} {a : α} (h : read v = some a) (hnull : read .null = none) :
    v.optional read = some (some a) := by
  cases v with
  | null => rw [hnull] at h; cases h
  | _ => exact congrArg (Option.map some) h

theorem optional_getD_map {o : Option α} {write : α → Json}
    (h : ∀ a ∈ o, read (write a) = some a) (hnull : read .null = none) :
    ((o.map write).getD .null).optional read = some o := by
  cases o with
  | none => rfl
  | some a => exact optional_of_read (h a rfl) hnull

theorem throughout_of_asRecord? {P : Json → Prop} {keys : List String} {v u : Json} {key : String}
    {entries : List (String × Json)} (hv : v.Throughout P) (h : v.asRecord? keys = some entries)
    (hentry : entries.lookup key = some u) : u.Throughout P := by
  cases v with
  | obj others =>
    cases h
    exact hv.inside (leads_of_get? hentry)
  | arr items =>
    unfold asRecord? at h
    dsimp only at h
    split at h
    · cases h
      obtain ⟨before, after, hzip, -⟩ := List.lookup_eq_some_iff.mp hentry
      have hmem : (key, u) ∈ keys.zip items := by simp [hzip]
      obtain ⟨s, hs⟩ := exists_leads_of_mem (List.of_mem_zip hmem).2
      exact hv.inside hs
    · cases h
  | null | bool _ | int _ | double _ | str _ => cases h

theorem read_of_optional {v : Json} {a : α} (h : v.optional read = some (some a)) :
    read v = some a := by
  cases v with
  | null => cases h
  | _ =>
    obtain ⟨b, hb, hsome⟩ := Option.map_eq_some_iff.mp h
    cases hsome
    exact hb

theorem exists_of_optional_getD {o : Option Json} {a : α}
    (h : (o.getD .null).optional read = some (some a)) : ∃ v, o = some v ∧ read v = some a := by
  cases o with
  | none => cases h
  | some v => exact ⟨v, rfl, read_of_optional h⟩

end Json

theorem BaseType.ofTag?_toJson (t : BaseType) : ofTag? t.toJson = some t := ofName?_name t

theorem TemporalUnit.ofTag?_toJson (u : TemporalUnit) : ofTag? u.toJson = some u := ofName?_name u

theorem ColumnSource.ofJson?_name (s : ColumnSource) : ofJson? (.str s.name) = some s := by
  cases s <;> decide +kernel

theorem Binning.ofJson?_toJson {b : Binning} (h : b.WidthFinite) : ofJson? b.toJson = some b := by
  have hname : BinningStrategy.ofName? b.strategy.name = some b.strategy :=
    BinningStrategy.ofName?_name b.strategy
  have hcount : (((b.entries "binning_strategy" "num_bins" "bin_width").lookup "num_bins").getD
      .null).optional Json.asUInt32? = some b.numBins := by
    rw [lookup_count (by decide) (by decide)]
    exact Json.optional_getD_map (fun n _ => Json.asUInt32?_ofNat n) rfl
  have hwidth : (((b.entries "binning_strategy" "num_bins" "bin_width").lookup "bin_width").getD
      .null).optional Json.asDouble? = some b.binWidth := by
    rw [lookup_width (by decide) (by decide)]
    exact Json.optional_getD_map (fun w hw => Json.asDouble?_ofDouble (h w hw)) rfl
  simp [ofJson?, toJson, Json.asRecord?, lookup_strategy, Json.asTag?, hname, hcount, hwidth]

theorem Binning.widthFinite_of_ofJson? {v : Json} {b : Binning}
    (hv : v.Throughout Json.NumberFits) (h : ofJson? v = some b) : b.WidthFinite := by
  obtain ⟨entries, hentries, h⟩ := Option.bind_eq_some_iff.mp h
  obtain ⟨tag, _, h⟩ := Option.bind_eq_some_iff.mp h
  obtain ⟨name, _, h⟩ := Option.bind_eq_some_iff.mp h
  obtain ⟨strategy, _, h⟩ := Option.bind_eq_some_iff.mp h
  obtain ⟨count, _, h⟩ := Option.bind_eq_some_iff.mp h
  obtain ⟨width, hwidth, h⟩ := Option.bind_eq_some_iff.mp h
  cases h
  rintro w rfl
  obtain ⟨u, hu, hw⟩ := Json.exists_of_optional_getD hwidth
  exact Json.isFinite_of_asDouble? (Json.throughout_of_asRecord? hv hentries hu).here hw

namespace Column

variable {c d : Column}

/-- The references and the binning can be written, and no extra key is one that the descriptor
has a field for. -/
structure WellFormed (c : Column) : Prop where
  ref : ∀ r ∈ c.fieldRef, r.WellFormed
  width : ∀ b ∈ c.binning, b.WidthFinite
  extra : c.ExtraApart

instance (c : Column) : Decidable c.WellFormed :=
  decidable_of_iff ((∀ r ∈ c.fieldRef, r.WellFormed) ∧ (∀ b ∈ c.binning, b.WidthFinite) ∧
    c.ExtraApart) ⟨fun h => ⟨h.1, h.2.1, h.2.2⟩, fun h => ⟨h.1, h.2, h.3⟩⟩

/-- An entry of an optional fact that its reader takes is kept as that fact. -/
theorem fit_optional {α : Type} {read : Json → Option α} {put : Option α → Column} {v : Json}
    {x : α} (h : read v = some x) (hnull : read .null = none) :
    (((v.optional read).map put).map Except.ok).getD (.error Unfit.shape) = .ok (put (some x)) := by
  rw [Json.optional_of_read h hnull]
  rfl

theorem readEntry_fieldRef {r : ColumnRef} (h : r.WellFormed) (c : Column) :
    c.readEntry ("field_ref", r.toJson) = .ok { c with fieldRef := some r } := by
  have hr := ColumnRef.read_toJson h ⟨"/field_ref", []⟩
  generalize r.toJson = v at hr ⊢
  simp only [readEntry]
  split
  · cases hr
  · rw [hr]

/-- An entry under a key of no fact is an extra one. -/
theorem readEntry_extra {key : String} (h : key ∉ modelledKeys) (v : Json) (c : Column) :
    c.readEntry (key, v) = .ok { c with extra := c.extra.insert key v } := by
  unfold readEntry
  dsimp only
  split
  case h_18 => rfl
  all_goals exact absurd (by decide) h

theorem readEntries_extra {entries : List (String × Json)}
    (h : ∀ key ∈ entries.map Prod.fst, key ∉ modelledKeys) (c : Column) :
    entries.foldlM readEntry c = .ok { c with extra := c.extra.insertAll entries } := by
  refine foldlM_insertAll (fun extra => { c with extra }) (fun extra e he => ?_) c.extra
  exact readEntry_extra (h e.1 (List.mem_map_of_mem he)) e.2 { c with extra }

theorem readEntries_options {m : OrderedMap Json} (h : c.options = .empty) :
    (if m.isEmpty then [] else [("options", Json.obj m.entries)]).foldlM readEntry c
      = .ok { c with options := m } := by
  split
  case isTrue hempty =>
    have hm : m = c.options := by rw [h, OrderedMap.eq_empty_of_isEmpty hempty]
    rw [hm]
    rfl
  case isFalse =>
    have hm : OrderedMap.ofList m.entries = m := m.ofList_entries
    show Except.ok { c with options := .ofList m.entries } = _
    rw [hm]

theorem readEntries_required (c : Column) :
    [("name", Json.str c.name), ("display_name", .str c.displayName),
        ("base_type", c.baseType.toJson)].foldlM readEntry {}
      = .ok { name := c.name, displayName := c.displayName, baseType := c.baseType } := by
  have ht : BaseType.ofTag? c.baseType.toJson = some c.baseType := c.baseType.ofTag?_toJson
  simp [readEntry, Json.asString?, ht, pure, Except.pure]

theorem readEntries_entries (h : c.WellFormed) : c.entries.foldlM readEntry {} = .ok c := by
  simp only [entries, List.foldlM_append, readEntries_required, ok_bind]
  -- A fact that is absent has no entry and stays absent.
  rw [foldlM_toList (fun (c : Column) t => { c with effectiveType := t }) rfl
      fun t _ => fit_optional t.ofTag?_toJson rfl, ok_bind,
    foldlM_toList (fun (c : Column) s => { c with coercionStrategy := s }) rfl
      fun _ _ => rfl, ok_bind,
    foldlM_toList (fun (c : Column) s => { c with source := s }) rfl
      fun s _ => fit_optional s.ofJson?_name rfl, ok_bind,
    foldlM_toList (fun (c : Column) r => { c with fieldRef := r }) rfl
      fun r hr => readEntry_fieldRef (h.ref r hr) _, ok_bind,
    foldlM_toList (fun (c : Column) i => { c with ident := i }) rfl
      fun _ _ => rfl, ok_bind,
    foldlM_toList (fun (c : Column) i => { c with id := i }) rfl
      fun i _ => fit_optional (Json.asInt64?_ofInt64 i) rfl, ok_bind,
    foldlM_toList (fun (c : Column) a => { c with sourceAlias := a }) rfl
      fun _ _ => rfl, ok_bind,
    foldlM_toList (fun (c : Column) i => { c with fkFieldId := i }) rfl
      fun i _ => fit_optional (Json.asInt64?_ofInt64 i) rfl, ok_bind,
    foldlM_toList (fun (c : Column) b => { c with binning := b }) rfl
      fun b hb => fit_optional (Binning.ofJson?_toJson (h.width b hb)) rfl, ok_bind,
    foldlM_toList (fun (c : Column) u => { c with unit := u }) rfl
      fun u _ => fit_optional u.ofTag?_toJson rfl, ok_bind,
    foldlM_toList (fun (c : Column) z => { c with convertedTimezone := z }) rfl
      fun _ _ => rfl, ok_bind,
    foldlM_toList (fun (c : Column) i => { c with aggregationIndex := i }) rfl
      fun _ _ => rfl, ok_bind,
    foldlM_toList (fun (c : Column) n => { c with expressionName := n }) rfl
      fun _ _ => rfl, ok_bind,
    readEntries_options rfl, ok_bind, readEntries_extra h.extra]
  exact congrArg (fun m => Except.ok { c with extra := m }) c.extra.ofList_entries

theorem ofJson_toJson (h : c.WellFormed) : ofJson c.toJson = .ok c := readEntries_entries h

def groupedTotal : Column where
  name := "total"
  displayName := "Total: Month"
  baseType := .float
  effectiveType := some .decimal
  coercionStrategy := some "Coercion/Round"
  source := some .breakout
  fieldRef := some (.field ⟨.id 4, {
    baseType := some .float
    joinAlias := some "P"
    sourceField := some (-3)
    temporalUnit := some .month
    binning := some { strategy := .numBins, numBins := some 10 }
    namespaced := .ofList [("a/b", .null)] }⟩)
  ident := some "abc"
  id := some 4
  sourceAlias := some "P"
  fkFieldId := some (-3)
  binning := some { strategy := .binWidth, binWidth := some ⟨0x4004000000000000⟩ }
  unit := some .month
  convertedTimezone := some "UTC"
  aggregationIndex := some 0
  expressionName := some "e"
  options := .ofList [("a/b", .arr [.null, .int 1])]
  extra := .ofList [("semantic_type", .null), ("binning", .obj [("name", .str "x")])]

theorem ofJson_toJson_groupedTotal :
    groupedTotal.WellFormed ∧ groupedTotal.entries.length = 19 ∧
      ofJson groupedTotal.toJson = .ok groupedTotal := by
  have h : groupedTotal.WellFormed := by decide +kernel
  exact ⟨h, by decide +kernel, ofJson_toJson h⟩

theorem WellFormed.empty : WellFormed {} where
  ref _ h := nomatch h
  width _ h := nomatch h
  extra := extraApart_of_extra_empty rfl

theorem WellFormed.readEntry {e : String × Json} (hc : c.WellFormed)
    (he : e.2.Throughout Json.NumberFits) (h : c.readEntry e = .ok d) : d.WellFormed := by
  have hextra : d.ExtraApart := hc.extra.readEntry h
  suffices hfacts : (∀ r ∈ d.fieldRef, r.WellFormed) ∧ ∀ b ∈ d.binning, b.WidthFinite from
    ⟨hfacts.1, hfacts.2, hextra⟩
  clear hextra
  -- Only the entries of the reference and of the binning touch what is to be shown.
  obtain ⟨key, v⟩ := e
  unfold Column.readEntry at h
  dsimp only at h
  split at h
  case h_7 =>
    split at h
    · cases h
      exact ⟨fun _ hr => (nomatch hr), hc.width⟩
    · split at h
      · rename_i r hr
        cases h
        refine ⟨fun q hq => ?_, hc.width⟩
        cases hq
        exact ColumnRef.wellFormed_of_read he hr
      · cases h
  case h_12 =>
    obtain ⟨binning, hbinning, rfl⟩ := Option.map_eq_some_iff.mp (fit_eq_ok_iff.mp h)
    refine ⟨hc.ref, fun b hb => ?_⟩
    cases hb
    exact Binning.widthFinite_of_ofJson? he (Json.read_of_optional hbinning)
  case h_18 =>
    cases h
    exact ⟨hc.ref, hc.width⟩
  all_goals
    obtain ⟨fact, -, rfl⟩ := Option.map_eq_some_iff.mp (fit_eq_ok_iff.mp h)
    exact ⟨hc.ref, hc.width⟩

theorem wellFormed_of_ofJson {v : Json} (hv : v.Throughout Json.NumberFits)
    (h : ofJson v = .ok c) : c.WellFormed := by
  unfold ofJson at h
  split at h
  · exact foldlM_preserves (P := WellFormed)
      (fun c e he d hc h => hc.readEntry (hv.inside (.key he)) h) .empty h
  · cases h

/-- A column that was read is read again from the form in which it is written. -/
theorem ofJson_toJson_of_ofJson {v : Json} (hv : v.Throughout Json.NumberFits)
    (h : ofJson v = .ok c) : ofJson c.toJson = .ok c :=
  readEntries_entries (wellFormed_of_ofJson hv h)

end Column

end ResultSchema
