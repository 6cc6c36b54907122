import ResultSchema.Proofs.Outcome
import ResultSchema.Result.Annotate

/-! # What merging keeps

No merge changes how many columns there are, and a fact that a merge does not touch is the
same on every column afterwards.
-/

namespace ResultSchema

variable {α β : Type} {view : Column → β}

theorem Column.mergedIdent_of_owned (c : Column) (howns : c.ownsIdent) (hident : c.ident.isSome)
    (other : Option String) : c.mergedIdent other = c.ident := by
  unfold mergedIdent
  rw [howns, hident]
  rfl

namespace Merge

theorem declared_of_length_ne {columns declaredColumns : List Column}
    (h : declaredColumns.length ≠ columns.length) :
    declared columns declaredColumns = columns := if_pos (Ne.symm h)

theorem overlaid_of_length_ne {columns declaredColumns : List Column}
    (h : declaredColumns.length ≠ columns.length) :
    overlaid columns declaredColumns = columns := if_pos (Ne.symm h)

theorem declared_of_length_eq {columns declaredColumns : List Column}
    (h : declaredColumns.length = columns.length) :
    declared columns declaredColumns = columns.map fun c =>
      ((declaredColumns.find? (·.key == c.key)).map c.withDeclared).getD c := by
  unfold declared
  rw [if_neg (not_not.mpr h.symm)]
  refine List.map_congr_left fun c _ => ?_
  cases declaredColumns.find? (·.key == c.key) <;> rfl

theorem overlaid_of_length_eq {columns declaredColumns : List Column}
    (h : declaredColumns.length = columns.length) :
    overlaid columns declaredColumns = columns.zipWith Column.withDeclared declaredColumns :=
  if_neg (not_not.mpr h.symm)

@[simp] theorem length_overlaid (columns declared : List Column) :
    (overlaid columns declared).length = columns.length := by
  by_cases hlen : declared.length = columns.length
  · rw [overlaid_of_length_eq hlen, List.length_zipWith, hlen, Nat.min_self]
  · rw [overlaid_of_length_ne hlen]

@[simp] theorem length_executed (columns : List Column) (raws : List RawColumn) :
    (executed columns raws).length = columns.length := by
  fun_induction executed columns raws with
  | case1 c columns raw raws ih => rw [List.length_cons, List.length_cons, ih]
  | case2 columns => rfl
  | case3 raws => rfl

theorem forall₂_declared {R : α → Column → Prop} {declaredColumns : List Column}
    (hR : ∀ a c, ∀ d ∈ declaredColumns, R a c → R a (c.withDeclared d)) {l : List α}
    {columns : List Column} (h : List.Forall₂ R l columns) :
    List.Forall₂ R l (declared columns declaredColumns) := by
  unfold declared
  split
  · exact h
  rw [List.forall₂_map_right_iff]
  refine h.imp fun a c hac => ?_
  split
  · rename_i d hd
    exact hR a c d (List.mem_of_find?_eq_some hd) hac
  · exact hac

theorem forall₂_overlaid {R : α → Column → Prop} {declared : List Column}
    (hR : ∀ a c, ∀ d ∈ declared, R a c → R a (c.withDeclared d)) {l : List α}
    {columns : List Column} (h : List.Forall₂ R l columns) :
    List.Forall₂ R l (overlaid columns declared) := by
  unfold overlaid
  split
  · exact h
  rename_i hlen
  rw [not_not] at hlen
  induction h generalizing declared with
  | nil => exact .nil
  | @cons a c l columns hac _ ih =>
    cases declared with
    | nil => cases hlen
    | cons d declared =>
      obtain ⟨hd, hrest⟩ := List.forall_mem_cons.mp fun d hd a c => hR a c d hd
      have hl : columns.length = declared.length := by simpa using hlen
      exact .cons (hd a c hac) (ih (fun a c d hd => hrest d hd a c) hl)

/-- A relation that is kept under each declared column is kept when the same columns are
declared on both sides. -/
theorem overlaid_forall₂ {V : Column → Column → Prop}
    (hV : ∀ c d declared, V c d → V (c.withDeclared declared) (d.withDeclared declared))
    {columns others : List Column} (h : List.Forall₂ V columns others) (declared : List Column) :
    List.Forall₂ V (overlaid columns declared) (overlaid others declared) := by
  unfold overlaid
  rw [h.length_eq]
  split
  · exact h
  clear * - h hV
  induction h generalizing declared with
  | nil => exact .nil
  | cons hcd _ ih =>
    cases declared with
    | nil => exact .nil
    | cons d declared => exact .cons (hV _ _ d hcd) (ih declared)

theorem forall₂_executed {R : α → Column → Prop}
    (hR : ∀ a c raw, R a c → R a (c.withExecuted raw)) {l : List α} {columns : List Column}
    (h : List.Forall₂ R l columns) (raws : List RawColumn) :
    List.Forall₂ R l (executed columns raws) := by
  induction h generalizing raws with
  | nil => cases raws <;> exact .nil
  | cons hac h ih =>
    cases raws with
    | nil => exact .cons hac h
    | cons raw raws => exact .cons (hR _ _ raw hac) (ih raws)

theorem map_declared (hview : ∀ c d, view (Column.withDeclared c d) = view c)
    (columns declaredColumns : List Column) :
    (declared columns declaredColumns).map view = columns.map view := by
  refine map_eq_iff_forall₂.mpr (forall₂_declared ?_ (map_eq_iff_forall₂.mp rfl))
  exact fun _ c d _ h => (hview c d).trans h

theorem map_overlaid (hview : ∀ c d, view (Column.withDeclared c d) = view c)
    (columns declared : List Column) : (overlaid columns declared).map view = columns.map view := by
  refine map_eq_iff_forall₂.mpr (forall₂_overlaid ?_ (map_eq_iff_forall₂.mp rfl))
  exact fun _ c d _ h => (hview c d).trans h

theorem map_executed (hview : ∀ c raw, view (Column.withExecuted c raw) = view c)
    (columns : List Column) (raws : List RawColumn) :
    (executed columns raws).map view = columns.map view := by
  refine map_eq_iff_forall₂.mpr (forall₂_executed ?_ (map_eq_iff_forall₂.mp rfl) raws)
  exact fun _ c raw h => (hview c raw).trans h

theorem declared_nil (columns : List Column) : declared columns [] = columns := by
  cases columns with
  | nil => rfl
  | cons c columns => exact declared_of_length_ne (Nat.zero_ne_add_one _)

theorem overlaid_nil (columns : List Column) : overlaid columns [] = columns := by
  cases columns with
  | nil => rfl
  | cons c columns => exact overlaid_of_length_ne (Nat.zero_ne_add_one _)

theorem executed_nil (columns : List Column) : executed columns [] = columns := by
  cases columns <;> rfl

end Merge

namespace Annotator

variable {a : Annotator} {s : Stage} {columns out : List Column}

theorem modelColumn_eq_ok {entityId : String} {c d : Column}
    (h : a.modelColumn entityId c = .ok d) :
    d = c ∨ c.ownsIdent = false ∧ ∃ ident, d = { c with ident } := by
  unfold modelColumn at h
  split at h
  · cases h
    cases howns : c.ownsIdent with
    | true => exact .inl rfl
    | false => exact .inr ⟨rfl, _, rfl⟩
  · split at h <;> cases h
    exact .inl rfl

theorem forall₂_modelColumns {R : α → Column → Prop}
    (hR : ∀ x c ident, c.ownsIdent = false → R x c → R x { c with ident }) {l : List α}
    (hl : List.Forall₂ R l columns) (h : a.modelColumns s columns = .ok out) :
    List.Forall₂ R l out := by
  unfold modelColumns at h
  split at h
  · refine forall₂_of_mapM_eq_ok (fun x c d hx hd => ?_) hl h
    obtain rfl | ⟨howns, ident, rfl⟩ := modelColumn_eq_ok hd
    · exact hx
    · exact hR x c ident howns hx
  · split at h <;> cases h
    exact hl

theorem length_modelColumns (h : a.modelColumns s columns = .ok out) :
    out.length = columns.length := by
  have hall : List.Forall₂ (fun _ _ => True) columns out :=
    forall₂_modelColumns (fun _ _ _ _ _ => trivial) (List.forall₂_same.mpr fun _ _ => trivial) h
  exact hall.length_eq.symm

theorem forall₂_modelled {R : α → Column → Prop}
    (hR : ∀ x c ident, c.ownsIdent = false → R x c → R x { c with ident }) {l : List α}
    (hl : List.Forall₂ R l columns)
    (h : if s.isModel then a.modelColumns s columns = .ok out else out = columns) :
    List.Forall₂ R l out := by
  split at h
  · exact forall₂_modelColumns hR hl h
  · rwa [h]

theorem map_modelled (hview : ∀ c ident, view { c with ident } = view c)
    (h : if s.isModel then a.modelColumns s columns = .ok out else out = columns) :
    out.map view = columns.map view := by
  refine map_eq_iff_forall₂.mpr (forall₂_modelled ?_ (map_eq_iff_forall₂.mp rfl) h)
  exact fun _ c ident _ hc => (hview c ident).trans hc

end Annotator

end ResultSchema
