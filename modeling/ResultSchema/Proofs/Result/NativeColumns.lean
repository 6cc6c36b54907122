import ResultSchema.Proofs.Resolve.Parents
import ResultSchema.Proofs.Result.Covered
import ResultSchema.Proofs.Result.Width
import Mathlib.Data.List.Nodup

/-! # What native columns show

A native query has columns exactly when its rows fit them and the fields that the driver knows are
found. A column of no known field is described by the name that was handed out for it, and not by
the one that the driver gave.
-/

namespace ResultSchema

theorem Ident.native_inj {name other : String} :
    Ident.native name = Ident.native other ↔ name = other := String.append_right_inj _

namespace Native

variable {lexicon : Lexicon} {results : ExecutionResult} {columns : List Column}

theorem exists_column_iff (raw : RawColumn) (sample : Option Json) (unique : String) :
    (∃ c, column lexicon raw sample unique = .ok c) ↔ ∀ id ∈ raw.id, lexicon.Resolves id := by
  unfold column
  cases raw.id with
  | none => simp
  | some id =>
    have hresolves : (∀ other ∈ some id, lexicon.Resolves other) ↔
        ∃ c, lexicon.column id = .ok c := by simp [Lexicon.exists_column_iff]
    rw [hresolves]
    constructor
    · rintro ⟨c, h⟩
      obtain ⟨field, hfield, -⟩ := bind_eq_ok_iff.mp h
      exact ⟨field, hfield⟩
    · rintro ⟨field, hfield⟩
      exact ⟨_, bind_eq_ok_iff.mpr ⟨field, hfield, rfl⟩⟩

theorem exists_columns_iff : (∃ columns, Native.columns lexicon results = .ok columns) ↔
    ¬ results.Misfits results.columns.length ∧
      ∀ raw ∈ results.columns, ∀ id ∈ raw.id, lexicon.Resolves id := by
  have hraws : ((results.columns.zip (UniqueNames.freshAll {} results.columnNames)).zipIdx.map
      Prod.fst).map Prod.fst = results.columns.map id := by
    rw [List.zipIdx_map_fst, map_fst_zip_names, List.map_id]
  rw [← checkWidth_eq_ok_iff]
  unfold Native.columns
  cases hwidth : checkWidth results with
  | error e => simp
  | ok _ =>
    rw [List.map_map] at hraws
    rw [ok_bind, exists_mapM_eq_ok_iff]
    simp only [exists_column_iff, true_and]
    exact forall_mem_of_map_eq hraws fun raw => ∀ id ∈ raw.id, lexicon.Resolves id

theorem id_of_column {raw : RawColumn} {sample : Option Json} {unique : String} {c : Column}
    (h : column lexicon raw sample unique = .ok c) : c.id = raw.id := by
  unfold column at h
  cases hid : raw.id with
  | some id =>
    rw [hid] at h
    obtain ⟨field, -, h⟩ := bind_eq_ok_iff.mp h
    cases h
    show raw.id.or _ = _
    rw [hid]
    rfl
  | none =>
    rw [hid] at h
    cases h
    rfl

/-- The column is identified and referred to by its own name. It is labelled as the driver names
it, and typed as the driver or else a sample types it. -/
structure ShownByName (raw : RawColumn) (sample : Option Json) (c : Column) : Prop where
  ident : c.ident = some (Ident.native c.name)
  label : c.displayName = raw.name
  baseType : c.baseType = (raw.baseType.filter (!·.isWildcard)).getD
    ((sample.map BaseType.ofSample).getD .wildcard)
  fieldRef : c.fieldRef =
    if c.name.toList.all Text.isBlank then none
    else some (.byName c.name { baseType := some c.baseType })

theorem shownByName_of_column {raw : RawColumn} {sample : Option Json} {unique : String}
    {c : Column} (hid : raw.id = none) (h : column lexicon raw sample unique = .ok c) :
    ShownByName raw sample c := by
  unfold column at h
  rw [hid] at h
  cases h
  exact ⟨rfl, rfl, BaseType.best_pair _ _, rfl⟩

theorem forall₂_shownByName (h : Native.columns lexicon results = .ok columns) :
    List.Forall₂ (fun x c => x.1.id = none → ShownByName x.1 (results.rows.head?.bind (·[x.2]?)) c)
      results.columns.zipIdx columns :=
  (forall₂_zipIdx_columns h).imp fun _ _ ⟨_, hc⟩ hid => shownByName_of_column hid hc

theorem idents_nodup (h : Native.columns lexicon results = .ok columns) :
    (((results.columns.zip columns).filter (·.1.id.isNone)).map (·.2.ident)).Nodup := by
  have hident : ∀ p ∈ (results.columns.zip columns).filter (·.1.id.isNone),
      p.2.ident = some (Ident.native p.2.name) := by
    rintro ⟨raw, c⟩ hp
    obtain ⟨hp, hid⟩ := List.mem_filter.mp hp
    obtain ⟨_, _, hc⟩ := (List.forall₂_iff_zip.mp (forall₂_columns h)).2 hp
    exact (shownByName_of_column (Option.isNone_iff_eq_none.mp hid) hc).ident
  have hnames : (results.columns.zip columns).map (·.2.name) = columns.map (·.name) := by
    have hsnd := List.map_snd_zip (Nat.le_of_eq (length_columns h))
    calc (results.columns.zip columns).map (·.2.name)
      _ = ((results.columns.zip columns).map Prod.snd).map (·.name) := by rw [List.map_map]; rfl
      _ = columns.map (·.name) := by rw [hsnd]
  have hnodup : (((results.columns.zip columns).filter (·.1.id.isNone)).map (·.2.name)).Nodup :=
    (List.filter_sublist.map _).nodup (hnames ▸ names_columns_nodup h)
  have hinjective : Function.Injective fun name => some (Ident.native name) :=
    fun _ _ heq => Ident.native_inj.mp (Option.some.inj heq)
  rw [List.map_congr_left hident]
  simpa [Function.comp_def] using List.Nodup.map hinjective hnodup

/-- A native query has columns exactly when the first row, if there is one, is as wide as the
driver's columns, and the fields that these name are known with all fields around them. There is a
column for each of the driver's, in their order and under distinct names. Those of no known field
are described by their own names. -/
theorem columns_described (lexicon : Lexicon) (results : ExecutionResult) :
    ((∃ columns, Native.columns lexicon results = .ok columns) ↔
      ¬ results.Misfits results.columns.length ∧
        ∀ raw ∈ results.columns, ∀ id ∈ raw.id, lexicon.Resolves id) ∧
    ∀ columns, Native.columns lexicon results = .ok columns →
      (columns.length = results.columns.length ∧
        columns.map (·.id) = results.columns.map (·.id) ∧ ∀ c ∈ columns, c.source = some .native) ∧
      (columns.map (·.name) = UniqueNames.freshAll {} results.columnNames ∧
        (columns.map (·.name)).Nodup) ∧
      List.Forall₂
        (fun x c => x.1.id = none → ShownByName x.1 (results.rows.head?.bind (·[x.2]?)) c)
        results.columns.zipIdx columns ∧
      (((results.columns.zip columns).filter (·.1.id.isNone)).map (·.2.ident)).Nodup := by
  refine ⟨exists_columns_iff, fun columns h => ⟨⟨length_columns h, ?_, ?_⟩,
    ⟨names_columns h, names_columns_nodup h⟩, forall₂_shownByName h, idents_nodup h⟩⟩
  · exact (map_eq_map_of_forall₂ (fun _ _ ⟨_, _, hc⟩ => (id_of_column hc).symm)
      (forall₂_columns h)).symm
  · intro c hc
    obtain ⟨_, -, hmade⟩ := bind_eq_ok_iff.mp h
    obtain ⟨_, -, hcolumn⟩ := exists_of_mem_mapM hmade hc
    exact (column_eq_ok hcolumn).2

def personLexicon : Lexicon where
  catalog := fun id =>
    if id = 2 then
      some { id, name := "name", displayName := "Name", baseType := .text, parentId := some 3 }
    else if id = 3 then
      some { id, name := "person", displayName := "Person", baseType := .structured }
    else none
  humanizer := id

def repeatedTotals : ExecutionResult where
  columns := [{ name := "total", baseType := some .decimal }, { name := "total" },
    { name := "total_2", baseType := some .wildcard }, { name := " " },
    { name := "total", id := some 2 }]
  rows := [[.null, .int 3, .str "x", .null, .null]]

theorem columns_described_of_repeatedTotals :
    (¬ repeatedTotals.Misfits 5 ∧ ∀ raw ∈ repeatedTotals.columns, ∀ id ∈ raw.id,
      personLexicon.Resolves id) ∧
    ∃ columns, Native.columns personLexicon repeatedTotals = .ok columns ∧
      columns.map (fun c => (c.displayName, c.ident, c.baseType)) = [
        ("total", some "native__total", .decimal), ("total", some "native__total_2", .integer),
        ("total_2", some "native__total_2_2", .text), (" ", some "native__ ", .wildcard),
        ("Name", some "native__total_3", .text)] ∧
      (columns.map (·.name)).Nodup ∧ (∀ c ∈ columns, c.source = some .native) ∧
      columns.map (·.fieldRef) = [
        some (.byName "total" { baseType := some .decimal }),
        some (.byName "total_2" { baseType := some .integer }),
        some (.byName "total_2_2" { baseType := some .text }), none,
        some (.field ⟨.id 2, {}⟩)] := by
  have hfits : ¬ repeatedTotals.Misfits 5 := by
    rintro ⟨row, rest, hrows, hne⟩
    cases hrows
    exact hne rfl
  have hknown : ∀ raw ∈ repeatedTotals.columns, ∀ id ∈ raw.id, personLexicon.Resolves id := by
    intro raw hraw id hid
    have hid : id ∈ [(2 : Int64)] := List.mem_filterMap.mpr ⟨raw, hraw, hid⟩
    cases List.mem_singleton.mp hid
    exact ⟨_, [_], rfl, .nested rfl .outermost, by decide⟩
  obtain ⟨hiff, hshown⟩ := columns_described personLexicon repeatedTotals
  obtain ⟨columns, hc⟩ := hiff.mpr ⟨hfits, hknown⟩
  obtain ⟨⟨-, -, hsource⟩, ⟨-, hnames⟩, -⟩ := hshown columns hc
  have hview : (Native.columns personLexicon repeatedTotals).toOption.map (fun columns =>
      (columns.map fun c => (c.displayName, c.ident, c.baseType), columns.map (·.fieldRef))) =
      some ([
        ("total", some "native__total", .decimal), ("total", some "native__total_2", .integer),
        ("total_2", some "native__total_2_2", .text), (" ", some "native__ ", .wildcard),
        ("Name", some "native__total_3", .text)], [
        some (.byName "total" { baseType := some .decimal }),
        some (.byName "total_2" { baseType := some .integer }),
        some (.byName "total_2_2" { baseType := some .text }), none,
        some (.field ⟨.id 2, {}⟩)]) := by decide +kernel
  rw [hc] at hview
  obtain ⟨hshows, hrefs⟩ := Prod.mk.inj (Option.some.inj hview)
  exact ⟨⟨hfits, hknown⟩, columns, hc, hshows, hnames, hsource, hrefs⟩

end Native

end ResultSchema
