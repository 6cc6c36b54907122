import ResultSchema.Proofs.Clause.Faults
import ResultSchema.Proofs.Json.Excerpt
import ResultSchema.Stage.Reader

/-! # Faults in stages

Reading a stage or a join, down to any limit of nesting, reports faults inside the document that
was given. The error of a reader therefore has the path from the start to the value at fault, and
an excerpt of that value.
-/

namespace ResultSchema

namespace Stage

variable {entries : List (String × Json)} {loc : Location}

theorem readItems_faults (key : String) :
    FaultsWithin (.obj entries) loc (readItems entries key loc) := by
  unfold readItems
  split
  · exact .ok _
  · exact .ok _
  · exact .ok _
  · rename_i hlookup
    exact .lookup hlookup (.own _)

theorem readItems_eq_ok {key : String} {items : List Json}
    (h : readItems entries key loc = .ok items) :
    items = [] ∨ entries.lookup key = some (.arr items) := by
  unfold readItems at h
  split at h
  · cases h
    exact .inl rfl
  · cases h
    exact .inl rfl
  · rename_i hlookup
    cases h
    exact .inr hlookup
  · cases h

theorem readEach_faults {α : Type} {read : Nat → Json → Location → Reading α}
    (hread : ∀ i v loc, FaultsWithin v loc (read i v loc)) (key : String) :
    FaultsWithin (.obj entries) loc (readEach read entries key loc) := by
  refine .bind (readItems_faults key) fun items hitems => ?_
  obtain rfl | hlookup := readItems_eq_ok hitems
  · exact .ok _
  · refine .lookup hlookup (.mapM ?_)
    rintro ⟨v, i⟩ hv
    exact .index (List.mem_zipIdx_iff_getElem?.mp hv) (hread i v _)

theorem readMetadata_faults : FaultsWithin (.obj entries) loc (readMetadata entries loc) := by
  unfold readMetadata
  split
  · exact .ok _
  · rename_i v hlookup
    refine .lookup hlookup ?_
    unfold readColumns
    split
    · exact .ok _
    · exact .own _

theorem readExpressions_faults :
    FaultsWithin (.obj entries) loc (readExpressions entries loc) := by
  unfold readExpressions
  dsimp only
  split
  · exact .ok _
  · rename_i v hlookup
    refine .lookup hlookup (.requireObject ?_)
    rintro named rfl
    refine .foldlM (fun expressions e he => ?_) _
    exact .bind (.key he (Clause.read_faults _ _)) fun _ _ => .ok _

end Stage

section Nested

variable {readStage : Json → Location → Reading Stage}
variable (hread : ∀ v loc, FaultsWithin v loc (readStage v loc))
variable {entries : List (String × Json)} {loc : Location}

theorem Join.readCondition_faults :
    FaultsWithin (.obj entries) loc (readCondition entries loc) := by
  unfold readCondition
  split
  · exact .ok _
  · exact .ok _
  · rename_i v _ hlookup
    exact .map (.lookup hlookup (Clause.read_faults v _)) _

theorem Source.readTable_faults {σ : Type} :
    FaultsWithin (.obj entries) loc (readTable entries loc : Reading (Source σ)) := by
  unfold readTable
  split
  · exact .ok _
  · rename_i hlookup
    exact .bind (.lookup hlookup (.require _ _)) fun _ _ => .ok _

include hread

theorem Join.readWith_faults (v : Json) (loc : Location) :
    FaultsWithin v loc (readWith readStage v loc) := by
  refine .requireObject ?_
  rintro entries rfl
  -- The stage of a join is read from the same value as the join.
  exact .bind (.require _ _) fun joinAlias _ => .bind readCondition_faults fun condition _ =>
    .bind (hread _ loc) fun stage _ => .ok _

theorem Source.readEntries_faults :
    FaultsWithin (.obj entries) loc (readEntries readStage entries loc) := by
  refine .bind readTable_faults fun table _ => ?_
  split
  · exact .ok _
  · rename_i v hlookup
    refine .lookup hlookup ?_
    unfold readWith
    split
    · exact .ok _
    · exact .map (hread v _) _

end Nested

namespace Stage

theorem readWithin_faults (levels : Nat) (v : Json) (loc : Location) (depth max : Nat) :
    FaultsWithin v loc (readWithin levels v loc depth max) := by
  induction levels generalizing v loc depth with
  | zero => exact .own _
  | succ levels ih =>
    have hinner (v : Json) (loc : Location) :
        FaultsWithin v loc (readWithin levels v loc (depth + 1) max) := ih v loc (depth + 1)
    refine .requireObject ?_
    rintro entries rfl
    refine .bind (Source.readEntries_faults hinner) fun source _ =>
      .bind readMetadata_faults fun metadata _ =>
      .bind (readEach_faults (fun _ => Join.readWith_faults hinner) _) fun joins _ =>
      .bind (readEach_faults (fun _ v loc => ?_) _) fun breakouts _ =>
      .bind (readEach_faults (fun _ v loc => ?_) _) fun aggregations _ =>
      .bind readExpressions_faults fun expressions _ =>
      .bind (readEach_faults (fun _ => Clause.read_faults) _) fun fields _ => .ok _
    · exact .bind (Clause.read_faults v loc) fun _ _ => .ok _
    · exact .bind (Aggregation.read_faults v loc) fun _ _ => .ok _

theorem read_faults (v : Json) (loc : Location) (depth max : Nat) :
    FaultsWithin v loc (read v loc depth max) :=
  readWithin_faults _ v loc depth max

end Stage

theorem Join.read_faults (v : Json) (loc : Location) (depth max : Nat) :
    FaultsWithin v loc (read v loc depth max) :=
  readWith_faults (fun v loc => Stage.read_faults v loc (depth + 1) max) v loc

/-- Whatever part of a query is refused, at whatever depth and limit, the error has the path of
the start followed by the steps to a value inside the document, and that value's JSON clipped to
80 bytes. It is the only value at that place unless an object repeats a key. -/
theorem read_error_points {v : Json} {loc : Location} {depth max : Nat} {e : ReadError}
    (h : Stage.read v loc depth max = .error e ∨ Join.read v loc depth max = .error e ∨
      Clause.read v loc = .error e ∨ Aggregation.read v loc = .error e ∨
      FieldOptions.read v loc = .error e ∨ Binning.read v loc = .error e ∨
      ColumnRef.read v loc = .error e) :
    ∃ steps, e.path = loc.text ++ String.join (steps.map fun s => "/" ++ s.text) ∧
      v.Reaches steps e.value ∧ Json.Clipped 80 e.value.compact e.text ∧
      (v.Throughout Json.KeysDistinct → ∀ w, v.Reaches steps w → w = e.value) := by
  have hwithin : e.Within v loc := by
    rcases h with h | h | h | h | h | h | h
    · exact Stage.read_faults v loc depth max e h
    · exact Join.read_faults v loc depth max e h
    · exact Clause.read_faults v loc e h
    · exact Aggregation.read_faults v loc e h
    · exact FieldOptions.read_faults v loc e h
    · exact Binning.read_faults v loc e h
    · exact ColumnRef.read_faults v loc e h
  obtain ⟨steps, hpath, hreach⟩ := hwithin.path_eq
  exact ⟨steps, hpath, hreach, Json.clip_clipped 80 e.value.compact,
    fun hdistinct w hw => Json.reaches_unique hdistinct hw hreach⟩

def misread : Json :=
  .obj [("joins", .arr [.obj [("alias", .str "A"), ("condition", .arr [.str "=", .int 1,
    .arr [.str "case", .arr [.arr [.bool true,
      .arr [.str "field", .int 2, .obj [("base-type", .str "x")]]]]]])]])]

theorem read_error_points_of_misread :
    ∃ e steps, Stage.read misread ⟨"/query", []⟩ 1 32 = .error e ∧
      e.path = "/query/joins/0/condition/2/1/0/1/2/base-type" ∧ e.text = "\"x\"" ∧
      misread.Reaches steps e.value := by
  have h : Stage.read misread ⟨"/query", []⟩ 1 32 = .error ⟨.unknownBaseType, ⟨"/query", [
      .key "joins", .index 0, .key "condition", .index 2, .index 1, .index 0, .index 1, .index 2,
      .key "base-type"]⟩, .str "x"⟩ := by rfl
  obtain ⟨steps, -, hreach, -⟩ := read_error_points (.inl h)
  exact ⟨_, steps, h, by decide +kernel, by decide +kernel, hreach⟩

end ResultSchema
