import ResultSchema.Result.Merge
import Mathlib.Data.List.Forall2

/-! # Columns on which the driver's report is already

What the driver reports is laid over a column fact by fact, and each fact is taken or left by
itself. A report that was laid over a column once therefore changes nothing a second time.
-/

namespace ResultSchema

theorem or_or_self {α : Type} (o p : Option α) : o.or (o.or p) = o.or p := by
  rw [← Option.or_assoc, Option.or_self]

/-- What the driver reports of a column is on it already. -/
structure Column.Covers (c : Column) (raw : RawColumn) : Prop where
  effectiveType : BaseType.known? [raw.effectiveType, raw.baseType, c.effectiveType,
    some c.baseType] = c.effectiveType
  baseType : BaseType.best [raw.baseType, some c.baseType] = c.baseType
  id : raw.id.or c.id = c.id
  label : raw.label?.getD c.displayName = c.displayName
  extra : c.extra.insertAll (raw.databaseEntry ++ raw.extra.entries.filter RawColumn.isPlain) =
    c.extra
  ident : c.mergedIdent raw.ident? = c.ident

namespace BaseType

theorem best_cons (t : Option BaseType) (rest : List (Option BaseType)) :
    best (t :: rest) = (t.filter (!·.isWildcard)).getD (best rest) := by
  unfold best
  rw [known?_cons]
  cases t.filter (!·.isWildcard) <;> rfl

theorem best_singleton (t : Option BaseType) : best [t] = t.getD wildcard := by
  cases t with
  | none => rfl
  | some t => cases t <;> rfl

theorem best_pair (t u : Option BaseType) :
    best [t, u] = (t.filter (!·.isWildcard)).getD (u.getD wildcard) := by
  rw [best_cons, best_singleton]

theorem best_again (base sample : Option BaseType) :
    best [base, some (best [base, sample])] = best [base, sample] := by
  rw [best_pair, Option.getD_some, best_cons]
  cases base.filter (!·.isWildcard) <;> rfl

/-- The effective type is found again when it is asked for after the reported ones. -/
theorem known?_again (effective base own : Option BaseType) (t : BaseType) :
    known? [effective, base, known? [effective, base, own, some t], some (best [base, some t])] =
      known? [effective, base, own, some t] := by
  have hknown := filter_known? [effective, base, own, some t]
  generalize hfound : known? [effective, base, own, some t] = found at hknown ⊢
  simp only [known?_cons, best_pair, Option.getD_some, hknown] at hfound ⊢
  generalize effective.filter (!·.isWildcard) = effective at hfound ⊢
  generalize base.filter (!·.isWildcard) = base at hfound ⊢
  cases effective with
  | some _ => exact hfound
  | none => cases base with
    | some _ => exact hfound
    | none =>
      simp only [Option.none_or, Option.getD_none] at hfound ⊢
      rw [← hfound, Option.or_assoc, Option.or_self]

theorem known?_best (candidates : List (Option BaseType)) :
    (if (best candidates).isWildcard then none else some (best candidates)) =
      known? candidates := by
  have hknown := filter_known? candidates
  unfold best
  cases h : known? candidates with
  | none => rfl
  | some t =>
    rw [h, Option.filter_eq_some_iff] at hknown
    simpa using hknown.2

theorem known?_reported {effective : Option BaseType} (h : effective ≠ some .wildcard)
    (base sample : Option BaseType) :
    known? [effective, base, effective.or (known? [base, sample]), some (best [base, sample])] =
      effective.or (known? [base, sample]) := by
  cases effective with
  | some t =>
    have ht : (some t : Option BaseType).filter (!·.isWildcard) = some t :=
      Option.filter_eq_some_iff.mpr ⟨rfl, by simpa [isWildcard] using h⟩
    rw [known?_cons, ht]
    rfl
  | none =>
    have hknown := filter_known? [base, sample]
    rw [known?_cons, known?_cons, known?_cons, Option.none_or, hknown, best]
    rw [known?_cons base [sample]]
    cases base.filter (!·.isWildcard) with
    | some _ => rfl
    | none => cases known? [sample] <;> rfl

end BaseType

namespace Column

variable {c : Column} {raw : RawColumn}

theorem Covers.withExecuted_eq (h : c.Covers raw) : c.withExecuted raw = c := by
  have hextra : (c.extra.insertAll raw.databaseEntry).insertAll
      (raw.extra.entries.filter RawColumn.isPlain) = c.extra :=
    (OrderedMap.insertAll_append ..).symm.trans h.extra
  unfold withExecuted
  rw [h.effectiveType, h.baseType, h.id, h.label, hextra, h.ident]

theorem withExecuted_extra (c : Column) (raw : RawColumn) : (c.withExecuted raw).extra =
    c.extra.insertAll (raw.databaseEntry ++ raw.extra.entries.filter RawColumn.isPlain) :=
  (OrderedMap.insertAll_append ..).symm

theorem mergedIdent_eq (c : Column) (other : Option String) :
    c.mergedIdent other = if c.ownsIdent then c.ident.or other else other.or c.ident := by
  unfold mergedIdent
  cases c.ownsIdent <;> cases c.ident <;> cases other <;> rfl

theorem mergedIdent_again {d : Column} {other : Option String} (hsource : d.source = c.source)
    (hident : d.ident = c.mergedIdent other) : d.mergedIdent other = d.ident := by
  have howns : d.ownsIdent = c.ownsIdent := by rw [ownsIdent, ownsIdent, hsource]
  rw [mergedIdent_eq, howns, hident, mergedIdent_eq]
  split
  · rw [Option.or_assoc, Option.or_self]
  · exact or_or_self _ _

theorem withExecuted_covers (c : Column) (raw : RawColumn) : (c.withExecuted raw).Covers raw where
  effectiveType := BaseType.known?_again _ _ _ _
  baseType := BaseType.best_again _ _
  id := or_or_self _ _
  label := by
    show raw.label?.getD (raw.label?.getD c.displayName) = raw.label?.getD c.displayName
    cases raw.label? <;> rfl
  extra := by
    rw [withExecuted_extra, OrderedMap.insertAll_insertAll]
  ident := mergedIdent_again (c := c) rfl rfl

end Column

theorem Merge.executed_of_covers {raws : List RawColumn} {columns : List Column}
    (h : List.Forall₂ (fun raw c => Column.Covers c raw) raws columns) :
    executed columns raws = columns := by
  induction h with
  | nil => rfl
  | cons hc _ ih => rw [executed, hc.withExecuted_eq, ih]

end ResultSchema
