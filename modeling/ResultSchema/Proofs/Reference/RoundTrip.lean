import ResultSchema.Reference.ColumnRef
import ResultSchema.Proofs.Outcome
import ResultSchema.Proofs.Json.Numbers

/-! # References are read back as they were written

The written form of a well-formed reference is read as that reference. What is read from a
document is well formed, so that its written form is the one form it is kept in.
-/

namespace ResultSchema

namespace Json

@[simp] theorem asUInt32?_ofNat (n : UInt32) : (ofNat n.toNat).asUInt32? = some n := by
  have hlt : n.toNat < UInt32.size := n.toNat_lt
  simp [asUInt32?, asNat?_ofNat, hlt]

theorem asDouble?_ofDouble {x : Double} (h : x.isFinite) : (ofDouble x).asDouble? = some x := by
  rw [ofDouble, if_pos h]
  rfl

end Json

theorem bind_map_eq_self {α β : Type} {o : Option α} {write : α → β} {read : β → Option α}
    (h : ∀ a ∈ o, read (write a) = some a) : (o.map write).bind read = o := by
  cases o with
  | none => rfl
  | some a => exact h a rfl

/-- A run that inserts every entry into a map; `put` tells what holds the map. -/
theorem foldlM_insertAll {ε β : Type} {f : β → String × Json → Except ε β}
    {entries : List (String × Json)} (put : OrderedMap Json → β)
    (h : ∀ m, ∀ e ∈ entries, f (put m) e = .ok (put (m.insert e.1 e.2))) (m : OrderedMap Json) :
    entries.foldlM f (put m) = .ok (put (m.insertAll entries)) := by
  induction entries generalizing m with
  | nil => rfl
  | cons e rest ih =>
    obtain ⟨he, hrest⟩ := List.forall_mem_cons.mp fun e he m => h m e he
    rw [List.foldlM_cons, he m, ok_bind]
    exact ih (fun m e he => hrest e he m) (m.insert e.1 e.2)

namespace Binning

variable {b : Binning} {loc : Location}

def WidthFinite (b : Binning) : Prop := ∀ w ∈ b.binWidth, w.isFinite

instance (b : Binning) : Decidable b.WidthFinite :=
  inferInstanceAs (Decidable (∀ w ∈ b.binWidth, _))

section Lookup

variable {strategyKey countKey widthKey : String}

theorem lookup_strategy :
    (b.entries strategyKey countKey widthKey).lookup strategyKey = some (.str b.strategy.name) := by
  simp [entries]

theorem lookup_count (hs : countKey ≠ strategyKey) (hw : countKey ≠ widthKey) :
    (b.entries strategyKey countKey widthKey).lookup countKey
      = b.numBins.map fun n => Json.ofNat n.toNat := by
  cases hn : b.numBins <;> cases hb : b.binWidth <;>
    simp [entries, hn, hb, List.lookup_cons, beq_eq_false_iff_ne.mpr hs,
      beq_eq_false_iff_ne.mpr hw]

theorem lookup_width (hs : widthKey ≠ strategyKey) (hc : widthKey ≠ countKey) :
    (b.entries strategyKey countKey widthKey).lookup widthKey
      = b.binWidth.map Json.ofDouble := by
  cases hn : b.numBins <;> cases hb : b.binWidth <;>
    simp [entries, hn, hb, List.lookup_cons, beq_eq_false_iff_ne.mpr hs,
      beq_eq_false_iff_ne.mpr hc]

end Lookup

theorem read_toOptions (h : b.WidthFinite) (loc : Location) : read b.toOptions loc = .ok b := by
  have hstrategy : b.toOptions.get? "strategy" = some (.str b.strategy.name) := by
    rw [toOptions, Json.get?, lookup_strategy]
  have hcount : (b.toOptions.get? "num-bins").bind Json.asUInt32? = b.numBins := by
    rw [toOptions, Json.get?, lookup_count (by decide) (by decide)]
    exact bind_map_eq_self fun n _ => Json.asUInt32?_ofNat n
  have hwidth : (b.toOptions.get? "bin-width").bind Json.asDouble? = b.binWidth := by
    rw [toOptions, Json.get?, lookup_width (by decide) (by decide)]
    exact bind_map_eq_self fun w hw => Json.asDouble?_ofDouble (h w hw)
  have hname : BinningStrategy.ofName? b.strategy.name = some b.strategy :=
    BinningStrategy.ofName?_name b.strategy
  simp only [read, hstrategy, hcount, hwidth]
  simp [toOptions, Json.asObject?, Json.asString?, hname, pure, Except.pure]

theorem widthFinite_of_read {v : Json} (hv : v.Throughout Json.NumberFits)
    (h : read v loc = .ok b) : b.WidthFinite := by
  obtain ⟨-, -, h⟩ := bind_eq_ok_iff.mp h
  obtain ⟨strategy, -, h⟩ := bind_eq_ok_iff.mp h
  cases h
  intro w hw
  obtain ⟨u, hu, hw⟩ := Option.bind_eq_some_iff.mp hw
  exact Json.isFinite_of_asDouble? (hv.inside (Json.leads_of_get? hu)).here hw

end Binning

namespace FieldOptions

variable {o : FieldOptions} {loc : Location}

/-- Every namespaced key has a slash, and the width of a binning is a number that can be
written. -/
structure WellFormed (o : FieldOptions) : Prop where
  slash : ∀ key ∈ o.namespaced.keys, key.toList.contains '/'
  width : ∀ b ∈ o.binning, b.WidthFinite

instance (o : FieldOptions) : Decidable o.WellFormed :=
  decidable_of_iff ((∀ key ∈ o.namespaced.keys, key.toList.contains '/') ∧
    ∀ b ∈ o.binning, b.WidthFinite) ⟨fun h => ⟨h.1, h.2⟩, fun h => ⟨h.1, h.2⟩⟩

theorem WellFormed.none : WellFormed {} where
  slash _ h := nomatch h
  width _ h := nomatch h

theorem eq_none_of_isEmpty (h : o.isEmpty) : o = {} := by
  obtain ⟨t, a, i, u, b, m⟩ := o
  simp only [isEmpty, Bool.and_eq_true, Option.isNone_iff_eq_none] at h
  obtain ⟨⟨⟨⟨⟨rfl, rfl⟩, rfl⟩, rfl⟩, rfl⟩, hm⟩ := h
  rw [OrderedMap.eq_empty_of_isEmpty hm]

theorem readEntry_of_slash {key : String} (h : key.toList.contains '/') (o : FieldOptions)
    (v : Json) :
    readEntry loc o (key, v) = .ok { o with namespaced := o.namespaced.insert key v } := by
  unfold readEntry
  dsimp only
  split
  case h_6 => exact if_pos h
  all_goals exact absurd h (by decide)

theorem readEntries_of_slash {entries : List (String × Json)}
    (h : ∀ key ∈ entries.map Prod.fst, key.toList.contains '/') (o : FieldOptions) :
    entries.foldlM (readEntry loc) o
      = .ok { o with namespaced := o.namespaced.insertAll entries } := by
  refine foldlM_insertAll (fun namespaced => { o with namespaced }) (fun m e he => ?_) o.namespaced
  exact readEntry_of_slash (h e.1 (List.mem_map_of_mem he)) { o with namespaced := m } e.2

section Entries

variable (o : FieldOptions)

theorem readEntry_baseType (t : BaseType) :
    readEntry loc o ("base-type", t.toJson) = .ok { o with baseType := some t } := by
  have ht : BaseType.ofJson? t.toJson = some t := BaseType.ofName?_name t
  simp only [readEntry, ht, Reading.require_some, ok_bind]
  rfl

theorem readEntry_sourceField (i : Int64) :
    readEntry loc o ("source-field", .ofInt64 i) = .ok { o with sourceField := some i } := by
  simp only [readEntry, Json.asInt64?_ofInt64, Reading.require_some, ok_bind]
  rfl

theorem readEntry_temporalUnit (u : TemporalUnit) :
    readEntry loc o ("temporal-unit", u.toJson) = .ok { o with temporalUnit := some u } := by
  have hu : TemporalUnit.ofJson? u.toJson = some u := TemporalUnit.ofName?_name u
  simp only [readEntry, hu, Reading.require_some, ok_bind]
  rfl

theorem readEntry_binning {b : Binning} (h : b.WidthFinite) :
    readEntry loc o ("binning", b.toOptions) = .ok { o with binning := some b } := by
  simp only [readEntry, b.read_toOptions h, ok_bind]
  rfl

end Entries

theorem read_toJson (h : o.WellFormed) (loc : Location) : read o.toJson loc = .ok o := by
  unfold toJson
  split
  case isTrue hempty =>
    rw [eq_none_of_isEmpty hempty]
    rfl
  case isFalse =>
    simp only [read, entries, List.foldlM_append]
    -- The entries are read in their order; an option that is absent has none and stays absent.
    rw [foldlM_toList (fun (o : FieldOptions) t => { o with baseType := t }) rfl
        fun t _ => readEntry_baseType {} t, ok_bind,
      foldlM_toList (fun (o : FieldOptions) a => { o with joinAlias := a }) rfl
        fun _ _ => rfl, ok_bind,
      foldlM_toList (fun (o : FieldOptions) i => { o with sourceField := i }) rfl
        fun i _ => readEntry_sourceField _ i, ok_bind,
      foldlM_toList (fun (o : FieldOptions) u => { o with temporalUnit := u }) rfl
        fun u _ => readEntry_temporalUnit _ u, ok_bind,
      foldlM_toList (fun (o : FieldOptions) b => { o with binning := b }) rfl
        fun b hb => readEntry_binning _ (h.width b hb), ok_bind,
      readEntries_of_slash h.slash]
    exact congrArg (fun m => Except.ok { o with namespaced := m }) o.namespaced.ofList_entries

theorem WellFormed.readEntry {e : String × Json} {q : FieldOptions} (ho : o.WellFormed)
    (he : e.2.Throughout Json.NumberFits) (h : readEntry loc o e = .ok q) : q.WellFormed := by
  obtain ⟨key, v⟩ := e
  unfold FieldOptions.readEntry at h
  dsimp only at h
  split at h
  case h_5 =>
    obtain ⟨b, hb, h⟩ := bind_eq_ok_iff.mp h
    cases h
    refine ⟨ho.slash, ?_⟩
    rintro _ ⟨⟩
    exact Binning.widthFinite_of_read he hb
  case h_6 =>
    split at h
    case isTrue hslash =>
      cases h
      refine ⟨fun other hother => ?_, ho.width⟩
      rcases OrderedMap.mem_keys_insert.mp hother with hother | rfl
      · exact ho.slash other hother
      · exact hslash
    case isFalse =>
      cases h
      exact ho
  all_goals
    obtain ⟨fact, -, h⟩ := bind_eq_ok_iff.mp h
    cases h
    exact ⟨ho.slash, ho.width⟩

theorem wellFormed_of_read {v : Json} (hv : v.Throughout Json.NumberFits)
    (h : read v loc = .ok o) : o.WellFormed := by
  unfold read at h
  split at h
  · cases h
    exact .none
  · exact foldlM_preserves (fun q e he q' hq h => hq.readEntry (hv.inside (.key he)) h) .none h
  · cases h

theorem wellFormed_of_readArg {α : Type} {tag : Json} {args : List Json} {a : α}
    {next : FieldOptions → Reading α} (hv : (Json.arr (tag :: args)).Throughout Json.NumberFits)
    (h : (match args[1]? with
      | some v => read v (loc.index 2) >>= next
      | none => pure ({} : FieldOptions) >>= next) = .ok a) :
    ∃ o : FieldOptions, o.WellFormed ∧ next o = .ok a := by
  split at h
  · rename_i v hitem
    have hplace : (tag :: args)[2]? = some v := hitem
    obtain ⟨o, ho, h⟩ := bind_eq_ok_iff.mp h
    exact ⟨o, wellFormed_of_read (hv.inside (.index hplace)) ho, h⟩
  · exact ⟨{}, .none, h⟩

end FieldOptions

theorem FieldId.ofJson?_toJson (id : FieldId) : FieldId.ofJson? id.toJson = some id := by
  cases id with
  | id i => exact congrArg (Option.map FieldId.id) (Json.asInt64?_ofInt64 i)
  | name s => rfl

namespace ColumnRef

variable {r q : ColumnRef} {loc : Location}

/-- The options of a reference are well formed. -/
def WellFormed : ColumnRef → Prop
  | field f => f.options.WellFormed
  | expression _ options => options.WellFormed
  | aggregation _ => True

instance (r : ColumnRef) : Decidable r.WellFormed := by
  cases r <;> unfold WellFormed <;> infer_instance

theorem read_toJson (h : r.WellFormed) (loc : Location) : read r.toJson loc = .ok r := by
  cases r with
  | field f =>
    have hid : FieldId.ofJson? f.id.toJson = some f.id := FieldId.ofJson?_toJson f.id
    have hoptions := FieldOptions.read_toJson h (loc.index 2)
    simp [read, toJson, FieldRef.toJson, FieldRef.readArgs, Json.asArray?, hid, hoptions, pure,
      Except.pure]
  | expression name options =>
    have hoptions := FieldOptions.read_toJson h (loc.index 2)
    by_cases hempty : options.isEmpty
    · cases FieldOptions.eq_none_of_isEmpty hempty
      rfl
    · simp [read, toJson, Json.asArray?, Json.asString?, hempty, hoptions, pure, Except.pure]
  | aggregation index => rfl

theorem wellFormed_of_read {v : Json} (hv : v.Throughout Json.NumberFits)
    (h : read v loc = .ok r) : r.WellFormed := by
  obtain ⟨items, hitems, h⟩ := bind_eq_ok_iff.mp h
  cases v with
  | arr whole =>
    cases hitems
    split at h
    · obtain ⟨f, hf, h⟩ := bind_eq_ok_iff.mp h
      obtain ⟨id, -, hf⟩ := bind_eq_ok_iff.mp hf
      obtain ⟨options, hoptions, hf⟩ := FieldOptions.wellFormed_of_readArg hv hf
      split at hf
      · cases hf
      · cases hf
        cases h
        exact hoptions
    · obtain ⟨name, -, h⟩ := bind_eq_ok_iff.mp h
      obtain ⟨options, hoptions, h⟩ := FieldOptions.wellFormed_of_readArg hv h
      cases h
      exact hoptions
    · obtain ⟨index, -, h⟩ := bind_eq_ok_iff.mp h
      cases h
      exact trivial
    · cases h
  | _ => cases hitems

theorem toJson_inj (hr : r.WellFormed) (hq : q.WellFormed) : r.toJson = q.toJson ↔ r = q := by
  refine ⟨fun h => ?_, congrArg toJson⟩
  have hread : (.ok r : Reading ColumnRef) = .ok q := by
    rw [← read_toJson hr ⟨"", []⟩, h, read_toJson hq]
  exact Except.ok.inj hread

/-- Well-formed references and their parts are read back from their written forms, and every
reference that is read is well formed. So writing and reading again keeps it, wherever its form
stands, and references that were read are equal when their forms are. -/
theorem round_trip :
    (∀ (b : Binning) (loc : Location), b.WidthFinite → Binning.read b.toOptions loc = .ok b) ∧
    (∀ (o : FieldOptions) (loc : Location), o.WellFormed → FieldOptions.read o.toJson loc = .ok o) ∧
    (∀ (r : ColumnRef) (loc : Location), r.WellFormed → read r.toJson loc = .ok r) ∧
    (∀ (v : Json) (loc : Location) (r : ColumnRef), v.Throughout Json.NumberFits →
      read v loc = .ok r → r.WellFormed ∧ ∀ place, read r.toJson place = .ok r) ∧
    ∀ (v w : Json) (loc place : Location) (r q : ColumnRef), v.Throughout Json.NumberFits →
      w.Throughout Json.NumberFits → read v loc = .ok r → read w place = .ok q →
        (r.toJson = q.toJson ↔ r = q) := by
  refine ⟨fun _ loc h => Binning.read_toOptions h loc, fun _ loc h => FieldOptions.read_toJson h loc,
    fun _ loc h => read_toJson h loc, fun v loc r hv h => ?_, fun v w loc place r q hv hw hr hq => ?_⟩
  · have hr : r.WellFormed := wellFormed_of_read hv h
    exact ⟨hr, fun place => read_toJson hr place⟩
  · exact toJson_inj (wellFormed_of_read hv hr) (wellFormed_of_read hw hq)

def decilesOptions : FieldOptions where
  joinAlias := some "P"
  binning := some { strategy := .binWidth, numBins := some 10, binWidth := some (.ofNat 10) }
  namespaced := .ofList [("a/b", .arr [.null, .int 2])]

def decilesRef : ColumnRef := .field ⟨.id 4, decilesOptions⟩

def decilesDocument : Json :=
  .arr [.str "field", .int 4, .obj [
    ("a/b", .arr [.null, .int 2]),
    ("other", .int 1),
    ("binning", .obj [("num-bins", .int 10), ("bin-width", .int 10),
      ("strategy", .str "bin-width")]),
    ("join-alias", .str "P")]]

def decilesText : String :=
  "[\"field\", 4, \x7b\"a/b\": [null, 2], \"other\": 1, \"binning\": \x7b\"num-bins\": 10, " ++
    "\"bin-width\": 10, \"strategy\": \"bin-width\"\x7d, \"join-alias\": \"P\"\x7d]"

theorem round_trip_deciles :
    (∀ b ∈ decilesOptions.binning, Binning.read b.toOptions ⟨"", []⟩ = .ok b) ∧
    FieldOptions.read decilesOptions.toJson ⟨"", []⟩ = .ok decilesOptions ∧
    read (toJson (.expression "profit" decilesOptions)) ⟨"", []⟩
      = .ok (.expression "profit" decilesOptions) ∧
    decilesDocument ≠ decilesRef.toJson ∧
    read decilesDocument ⟨"/field_ref", []⟩ = .ok decilesRef ∧
    decilesRef.WellFormed ∧ read decilesRef.toJson ⟨"", []⟩ = .ok decilesRef ∧
    (decilesRef.toJson = toJson (.aggregation 0) ↔ decilesRef = .aggregation 0) := by
  obtain ⟨hbinning, hoptions, href, haccepted, hcanonical⟩ := round_trip
  have hformed : decilesOptions.WellFormed := by decide +kernel
  have hread : read decilesDocument ⟨"/field_ref", []⟩ = .ok decilesRef := by decide +kernel
  have htext : Json.ofText? decilesText = some decilesDocument := by decide +kernel
  have hsum : Json.ofText? "[\"aggregation\", 0]" = some (.arr [.str "aggregation", .int 0]) := by
    decide +kernel
  have hfits := Json.throughout_of_ofText? htext
  obtain ⟨hdeciles, hagain⟩ := haccepted decilesDocument _ _ hfits hread
  exact ⟨fun b hb => hbinning b _ (hformed.width b hb), hoptions _ _ hformed, href _ _ hformed,
    by decide +kernel, hread, hdeciles, hagain _,
    hcanonical _ _ _ ⟨"", []⟩ _ _ hfits (Json.throughout_of_ofText? hsum) hread rfl⟩

end ColumnRef

end ResultSchema
