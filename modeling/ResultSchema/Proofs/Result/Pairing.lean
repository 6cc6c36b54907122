import ResultSchema.Proofs.Lookup
import ResultSchema.Proofs.Result.Merge

/-! # Pairing columns with declared ones

A column is merged with the first declared one that has its key. A map that keeps the first column
of each key finds the same one, and where keys are distinct the order in which columns are declared
does not matter.
-/

namespace ResultSchema

deriving instance Hashable for FieldId

deriving instance Hashable for RefKey

section Index

variable {α κ : Type} [BEq κ] [LawfulBEq κ] [Hashable κ] {key : α → κ}

/-- The first item of each key. -/
def firstByKey (key : α → κ) (items : List α) : Std.HashMap κ α :=
  items.foldl (fun index item => index.insertIfNew (key item) item) ∅

theorem getElem?_foldl_insertIfNew (index : Std.HashMap κ α) (items : List α) (x : κ) :
    (items.foldl (fun index item => index.insertIfNew (key item) item) index)[x]? =
      index[x]?.or (items.find? (key · == x)) := by
  induction items generalizing index with
  | nil => exact Option.or_none.symm
  | cons item rest ih =>
    rw [List.foldl_cons, ih, Std.HashMap.getElem?_insertIfNew, List.find?_cons]
    cases hx : key item == x with
    | false => simp
    | true =>
      -- A key that is there keeps its item.
      obtain rfl : key item = x := beq_iff_eq.mp hx
      by_cases hmem : key item ∈ index <;> simp [hmem]

theorem getElem?_firstByKey (items : List α) (x : κ) :
    (firstByKey key items)[x]? = items.find? (key · == x) := by
  rw [firstByKey, getElem?_foldl_insertIfNew, Std.HashMap.getElem?_empty, Option.none_or]

end Index

namespace Merge

variable {columns declaredColumns others : List Column}

/-- What a column becomes among declared ones: the first of those with its key is laid over it,
if there is one. -/
inductive Paired (declaredColumns : List Column) (c : Column) : Column → Prop
  | first {before after : List Column} {d : Column} :
      declaredColumns = before ++ d :: after → d.key = c.key → (∀ e ∈ before, e.key ≠ c.key) →
        Paired declaredColumns c (c.withDeclared d)
  | alone : (∀ d ∈ declaredColumns, d.key ≠ c.key) → Paired declaredColumns c c

theorem forall₂_paired (h : declaredColumns.length = columns.length) :
    List.Forall₂ (Paired declaredColumns) columns (declared columns declaredColumns) := by
  rw [declared_of_length_eq h, List.forall₂_map_right_iff, List.forall₂_same]
  intro c _
  cases hfound : declaredColumns.find? (·.key == c.key) with
  | none =>
    refine .alone fun d hd => ?_
    simpa using List.find?_eq_none.mp hfound d hd
  | some d =>
    obtain ⟨hkey, before, after, hsplit, hbefore⟩ := List.find?_eq_some_iff_append.mp hfound
    exact .first hsplit (beq_iff_eq.mp hkey) fun e he => by simpa using hbefore e he

theorem declared_of_perm (h : declaredColumns.Perm others)
    (hkeys : (declaredColumns.map Column.key).Nodup) :
    declared columns declaredColumns = declared columns others := by
  by_cases hlen : declaredColumns.length = columns.length
  · rw [declared_of_length_eq hlen, declared_of_length_eq (h.length_eq ▸ hlen)]
    refine List.map_congr_left fun c _ => ?_
    rw [find?_key_of_perm h hkeys]
  · rw [declared_of_length_ne hlen, declared_of_length_ne (h.length_eq ▸ hlen)]

/-- Columns that are declared in their own order are paired by position. -/
theorem declared_eq_overlaid (hkeys : declaredColumns.map Column.key = columns.map Column.key)
    (hnodup : (columns.map Column.key).Nodup) :
    declared columns declaredColumns = overlaid columns declaredColumns := by
  have hlen : declaredColumns.length = columns.length := by simpa using congrArg List.length hkeys
  rw [declared_of_length_eq hlen, overlaid_of_length_eq hlen]
  refine List.ext_getElem (by simp [hlen]) fun i hi _ => ?_
  have hi : i < columns.length := by rwa [List.length_map] at hi
  have hkey : declaredColumns[i].key = columns[i].key := by
    have hget : (declaredColumns.map Column.key)[i]? = (columns.map Column.key)[i]? := by rw [hkeys]
    simpa [hi, hlen] using hget
  have hfound : declaredColumns.find? (·.key == columns[i].key) = some declaredColumns[i] :=
    (find?_key_eq_some_iff (hkeys ▸ hnodup)).mpr ⟨List.getElem_mem _, hkey⟩
  rw [List.getElem_map, List.getElem_zipWith, hfound]
  rfl

/-- A declared column meets the columns that have its key. Where the keys of declared columns are
distinct their order does not matter, and in the order of the columns it is by position; of equal
keys the first declared column counts, as in a map of the first column of each key. -/
theorem declared_pairing (columns : List Column) :
    (∀ declaredColumns others, declaredColumns.Perm others →
      (declaredColumns.map Column.key).Nodup →
        declared columns declaredColumns = declared columns others) ∧
    (∀ declaredColumns, declaredColumns.length = columns.length →
      List.Forall₂ (Paired declaredColumns) columns (declared columns declaredColumns) ∧
        declared columns declaredColumns = columns.map fun c =>
          ((firstByKey Column.key declaredColumns)[c.key]?.map c.withDeclared).getD c) ∧
    (∀ declaredColumns, declaredColumns.map Column.key = columns.map Column.key →
      (columns.map Column.key).Nodup →
        declared columns declaredColumns = overlaid columns declaredColumns) ∧
    ∀ declaredColumns, declaredColumns = [] ∨ declaredColumns.length ≠ columns.length →
      declared columns declaredColumns = columns ∧ overlaid columns declaredColumns = columns := by
  refine ⟨fun _ _ => declared_of_perm, fun declaredColumns hlen => ⟨forall₂_paired hlen, ?_⟩,
    fun _ => declared_eq_overlaid, ?_⟩
  · simp only [declared_of_length_eq hlen, getElem?_firstByKey]
  · rintro declaredColumns (rfl | hlen)
    · exact ⟨declared_nil columns, overlaid_nil columns⟩
    · exact ⟨declared_of_length_ne hlen, overlaid_of_length_ne hlen⟩

def receipt : List Column := [
  { name := "name", displayName := "Buyer → Name",
    fieldRef := some (.field ⟨.id 2, { joinAlias := some "Buyer" }⟩) },
  { name := "count", displayName := "Count", fieldRef := some (.aggregation 0) },
  { name := "note", displayName := "note" }]

def relabelled : List Column :=
  receipt.zipWith (fun c displayName => { c with displayName }) ["Client", "Orders", "Remark"]

def twiceNoted : List Column := [
  { name := "note", displayName := "Remark" },
  { name := "n", displayName := "Orders", fieldRef := some (.aggregation 0) },
  { name := "note", displayName := "Memo" }]

theorem declared_pairing_of_receipt :
    (declared receipt relabelled.reverse = declared receipt relabelled ∧
      declared receipt relabelled = overlaid receipt relabelled ∧
      (overlaid receipt relabelled).map (·.displayName) = ["Client", "Orders", "Remark"]) ∧
    (List.Forall₂ (Paired twiceNoted) receipt (declared receipt twiceNoted) ∧
      (declared receipt twiceNoted).map (·.displayName) = ["Buyer → Name", "Orders", "Remark"]) ∧
    declared receipt twiceNoted.tail = receipt ∧ overlaid receipt twiceNoted.tail = receipt := by
  obtain ⟨hperm, hpaired, hplaced, hkept⟩ := declared_pairing receipt
  exact ⟨⟨hperm _ _ (List.reverse_perm _) (by decide), hplaced _ (by decide) (by decide),
    by decide⟩, ⟨(hpaired twiceNoted rfl).1, by decide⟩, hkept _ (.inr (by decide))⟩

end Merge

end ResultSchema
