import ResultSchema.Reference.FieldRef
import ResultSchema.Proofs.Outcome

/-! # The form of field references

Options are an object in which the value of every known key fits the key, or null, or nothing. A
field reference is an id or a name, then at most its options. Both are read exactly in that form,
wherever they stand.
-/

namespace ResultSchema

namespace Reading

variable {α : Type} {o : Option α} {fault : ReadFault} {loc : Location} {v : Json} {a : α}

theorem require_eq_ok_iff : require o fault loc v = .ok a ↔ o = some a := by
  cases o <;> simp [require]

end Reading

namespace Binning

variable {v : Json} {loc : Location} {b : Binning}

def ofOptions? (v : Json) : Option Binning := do
  let strategy ← BinningStrategy.ofName? (← (← v.get? "strategy").asString?)
  pure {
    strategy
    numBins := (v.get? "num-bins").bind Json.asUInt32?
    binWidth := (v.get? "bin-width").bind Json.asDouble? }

theorem read_eq_ok_iff : read v loc = .ok b ↔ ofOptions? v = some b := by
  unfold read ofOptions?
  simp only [bind_eq_ok_iff, Reading.require_eq_ok_iff, Option.bind_eq_bind,
    Option.bind_eq_some_iff, pure, Except.pure, Except.ok.injEq, Option.some.injEq]
  constructor
  · rintro ⟨_, -, strategy, ⟨u, hu, name, hname, hstrategy⟩, rfl⟩
    exact ⟨u, hu, name, hname, strategy, hstrategy, rfl⟩
  · rintro ⟨u, hu, name, hname, strategy, hstrategy, rfl⟩
    cases v with
    | obj entries => exact ⟨entries, rfl, strategy, ⟨u, hu, name, hname, hstrategy⟩, rfl⟩
    | _ => cases hu

end Binning

namespace FieldOptions

variable {loc : Location} {e : String × Json} {l entries : List (String × Json)} {o : FieldOptions}

def knownKeys : List String :=
  ["base-type", "join-alias", "source-field", "temporal-unit", "binning"]

/-- The value of an option fits its key; any value fits a key that is not known. -/
def Fits : String × Json → Prop
  | ("base-type", v) => (BaseType.ofJson? v).isSome
  | ("join-alias", v) => v.asString?.isSome
  | ("source-field", v) => v.asInt64?.isSome
  | ("temporal-unit", v) => (TemporalUnit.ofJson? v).isSome
  | ("binning", v) => (Binning.ofOptions? v).isSome
  | _ => True

/-- The last value under a key. -/
def last? (entries : List (String × Json)) (key : String) : Option Json :=
  entries.reverse.lookup key

/-- The options that entries stand for: the last value of a known key, and all entries of keys with
a slash. -/
def ofEntries (entries : List (String × Json)) : FieldOptions where
  baseType := (last? entries "base-type").bind BaseType.ofJson?
  joinAlias := (last? entries "join-alias").bind Json.asString?
  sourceField := (last? entries "source-field").bind Json.asInt64?
  temporalUnit := (last? entries "temporal-unit").bind TemporalUnit.ofJson?
  binning := (last? entries "binning").bind Binning.ofOptions?
  namespaced := .ofList (entries.filter (·.1.toList.contains '/'))

theorem last?_append (l : List (String × Json)) (key : String) (v : Json) (other : String) :
    last? (l ++ [(key, v)]) other = if other = key then some v else last? l other := by
  unfold last?
  rw [List.reverse_append, List.reverse_singleton, List.singleton_append, List.lookup_cons]
  split
  · rename_i h
    rw [if_pos (eq_of_beq h)]
  · rename_i h
    rw [if_neg (ne_of_beq_false h)]

theorem bind_pure_eq_ok_iff {α : Type} {x : Reading α} {found : Option α}
    {put : α → FieldOptions} {next : FieldOptions} (hx : ∀ a, x = .ok a ↔ found = some a)
    (hput : ∀ a, found = some a → put a = next) :
    (x >>= fun a => pure (put a)) = .ok o ↔ found.isSome ∧ o = next := by
  simp only [bind_eq_ok_iff, hx, pure, Except.pure, Except.ok.injEq, Option.isSome_iff_exists]
  constructor
  · rintro ⟨a, ha, rfl⟩
    exact ⟨⟨a, ha⟩, hput a ha⟩
  · rintro ⟨⟨a, ha⟩, rfl⟩
    exact ⟨a, ha, hput a ha⟩

/-- A key that is not known counts only if it has a slash. -/
theorem ofEntries_append_of_unknown {key : String} {v : Json}
    (hkey : key ∉ knownKeys) :
    ofEntries (l ++ [(key, v)]) =
      if key.toList.contains '/' then
        { ofEntries l with namespaced := (ofEntries l).namespaced.insert key v }
      else ofEntries l := by
  have hlast : ∀ known ∈ knownKeys, last? (l ++ [(key, v)]) known = last? l known := by
    intro known hknown
    rw [last?_append, if_neg]
    rintro rfl
    exact hkey hknown
  simp only [knownKeys, List.forall_mem_cons] at hlast
  obtain ⟨hbase, halias, hsource, hunit, hbinning, -⟩ := hlast
  simp only [ofEntries, hbase, halias, hsource, hunit, hbinning, List.filter_append,
    List.filter_cons, List.filter_nil]
  split
  · rw [OrderedMap.ofList, OrderedMap.insertAll_append]
    rfl
  · rw [List.append_nil]

theorem readEntry_eq_ok_iff :
    readEntry loc (ofEntries l) e = .ok o ↔ Fits e ∧ o = ofEntries (l ++ [e]) := by
  obtain ⟨key, v⟩ := e
  unfold readEntry
  dsimp only
  split
  case h_5 =>
    refine bind_pure_eq_ok_iff (fun b => Binning.read_eq_ok_iff) fun a ha => ?_
    simp [ofEntries, last?_append, ha]
  case h_6 hbase halias hsource hunit hbinning =>
    have hkey : key ∉ knownKeys := by
      simp only [knownKeys, List.mem_cons, List.not_mem_nil, or_false, not_or]
      exact ⟨hbase, halias, hsource, hunit, hbinning⟩
    have hfits : Fits (key, v) := by
      unfold Fits
      split <;> simp_all
    rw [ofEntries_append_of_unknown hkey]
    split <;> simp [hfits, pure, Except.pure, eq_comm]
  all_goals
    refine bind_pure_eq_ok_iff (fun a => Reading.require_eq_ok_iff) fun a ha => ?_
    simp [ofEntries, last?_append, ha]

theorem foldlM_readEntry_eq_ok_iff : entries.foldlM (readEntry loc) (ofEntries l) = .ok o ↔
    (∀ e ∈ entries, Fits e) ∧ o = ofEntries (l ++ entries) := by
  induction entries generalizing l with
  | nil => simp [pure, Except.pure, eq_comm]
  | cons e rest ih =>
    rw [List.foldlM_cons, bind_eq_ok_iff, List.forall_mem_cons]
    constructor
    · rintro ⟨next, hnext, h⟩
      obtain ⟨he, rfl⟩ := readEntry_eq_ok_iff.mp hnext
      obtain ⟨hrest, rfl⟩ := ih.mp h
      rw [List.append_assoc, List.singleton_append]
      exact ⟨⟨he, hrest⟩, rfl⟩
    · rintro ⟨⟨he, hrest⟩, rfl⟩
      refine ⟨_, readEntry_eq_ok_iff.mpr ⟨he, rfl⟩, ih.mpr ⟨hrest, ?_⟩⟩
      rw [List.append_assoc, List.singleton_append]

/-- The options that a reference is given: there may be none, and null stands for none. -/
inductive Written : Option Json → FieldOptions → Prop
  | absent : Written none {}
  | null : Written (some .null) {}
  | object {entries : List (String × Json)} :
      (∀ e ∈ entries, Fits e) → Written (some (.obj entries)) (ofEntries entries)

theorem read_eq_ok_iff {v : Json} : read v loc = .ok o ↔ Written (some v) o := by
  constructor
  · intro h
    cases v with
    | null =>
      cases h
      exact .null
    | obj entries =>
      obtain ⟨hfits, rfl⟩ := (foldlM_readEntry_eq_ok_iff (l := [])).mp h
      exact .object hfits
    | _ => cases h
  · intro h
    cases h with
    | null => rfl
    | object hfits => exact (foldlM_readEntry_eq_ok_iff (l := [])).mpr ⟨hfits, rfl⟩

theorem readArg_eq_ok_iff {α : Type} {arg : Option Json} {next : FieldOptions → Reading α} {a : α} :
    (match arg with
      | some v => read v loc >>= next
      | none => (pure {} : Reading FieldOptions) >>= next) = .ok a ↔
        ∃ o, Written arg o ∧ next o = .ok a := by
  cases arg with
  | some v => simp only [bind_eq_ok_iff, read_eq_ok_iff]
  | none =>
    constructor
    · intro h
      exact ⟨{}, .absent, h⟩
    · rintro ⟨_, ⟨⟩, h⟩
      exact h

end FieldOptions

theorem FieldRef.readArgs_eq_ok_iff {args : List Json} {loc : Location} {whole : Json}
    {f : FieldRef} :
    readArgs args loc whole = .ok f ↔ ∃ id options, args = id :: Option.toList options ∧
      FieldId.ofJson? id = some f.id ∧ FieldOptions.Written options f.options := by
  unfold readArgs
  rw [bind_eq_ok_iff]
  constructor
  · rintro ⟨fieldId, hid, h⟩
    rw [Reading.require_eq_ok_iff] at hid
    obtain ⟨options, hoptions, h⟩ := FieldOptions.readArg_eq_ok_iff.mp h
    split at h
    · cases h
    · rename_i hlength
      cases h
      obtain ⟨id, hitem, hid⟩ := Option.bind_eq_some_iff.mp hid
      match args with
      | [_] =>
        cases hitem
        exact ⟨id, none, rfl, hid, hoptions⟩
      | [_, v] =>
        cases hitem
        exact ⟨id, some v, rfl, hid, hoptions⟩
      | _ :: _ :: _ :: rest => exact absurd (Nat.le_add_left 3 rest.length) hlength
  · rintro ⟨id, options, rfl, hid, hoptions⟩
    have hwritten : FieldOptions.Written (id :: options.toList)[1]? f.options := by
      cases options <;> exact hoptions
    refine ⟨f.id, Reading.require_eq_ok_iff.mpr hid,
      FieldOptions.readArg_eq_ok_iff.mpr ⟨f.options, hwritten, if_neg ?_⟩⟩
    rw [List.length_cons, Nat.not_lt]
    exact Nat.succ_le_succ (by cases options <;> simp)

end ResultSchema
