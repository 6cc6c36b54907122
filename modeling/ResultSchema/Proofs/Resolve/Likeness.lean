import ResultSchema.Proofs.Names.Unique
import ResultSchema.Resolve.Scope
import Mathlib.Data.List.Forall2

/-! # Columns that are alike but for their labels

Labels are only ever put together from other labels. Columns that agree in everything else
stay in agreement through every step of resolution.
-/

namespace ResultSchema

def Column.labelled (c : Column) (label : String) : Column := { c with displayName := label }

/-- A relation between labels that is kept when labels are put together. -/
structure LabelRelation where
  Rel : String → String → Prop
  refl : ∀ a, Rel a a
  append : ∀ {a b c d}, Rel a b → Rel c d → Rel (a ++ c) (b ++ d)

namespace LabelRelation

variable (D : LabelRelation)

theorem intercalate (sep : String) {parts parts' : List String}
    (h : List.Forall₂ D.Rel parts parts') :
    D.Rel (String.intercalate sep parts) (String.intercalate sep parts') := by
  induction h with
  | nil => exact D.refl _
  | cons hab hrest ih =>
    cases hrest with
    | nil =>
      rw [String.intercalate_singleton, String.intercalate_singleton]
      exact hab
    | cons _ _ =>
      rw [String.intercalate_cons_cons, String.intercalate_cons_cons]
      exact D.append (D.append hab (D.refl sep)) ih

/-- Columns that agree but for their labels, which are related. -/
def Like (c d : Column) : Prop := ∃ label, D.Rel c.displayName label ∧ d = c.labelled label

variable {D} {c d : Column} {columns columns' : List Column}

theorem Like.refl (c : Column) : D.Like c c := ⟨c.displayName, D.refl _, rfl⟩

theorem Like.name_eq (h : D.Like c d) : c.name = d.name := by
  obtain ⟨_, -, rfl⟩ := h; rfl

theorem Like.map {f : Column → Column} (h : D.Like c d)
    (hf : ∀ c label, f (Column.labelled c label) = (f c).labelled label) : D.Like (f c) (f d) := by
  obtain ⟨label, hl, rfl⟩ := h
  have hc : (f c).displayName = c.displayName := by
    have := congrArg Column.displayName (hf c c.displayName)
    exact this
  exact ⟨label, hc ▸ hl, hf c label⟩

theorem Like.map_list {f : Column → Column} (h : List.Forall₂ D.Like columns columns')
    (hf : ∀ c label, f (Column.labelled c label) = (f c).labelled label) :
    List.Forall₂ D.Like (columns.map f) (columns'.map f) :=
  List.rel_map (fun _ _ hc => hc.map hf) h

theorem Like.qualified (h : D.Like c d) (qualifier : String) :
    D.Like (c.labelled (Label.qualified qualifier c.displayName))
      (d.labelled (Label.qualified qualifier d.displayName)) := by
  obtain ⟨label, hl, rfl⟩ := h
  exact ⟨Label.qualified qualifier label, D.append (D.refl _) hl, rfl⟩

theorem Like.wrapIdent (h : D.Like c d) (wrap : String → String → String)
    (outer : Option String) : D.Like (c.wrapIdent wrap outer) (d.wrapIdent wrap outer) := by
  refine h.map fun c label => ?_
  obtain ⟨_, _, _, _, _, _, _, ident, _, _, _, _, _, _, _, _, _, _⟩ := c
  cases outer <;> cases ident <;> rfl

theorem Like.longDisplayName (h : D.Like c d) : D.Rel c.longDisplayName d.longDisplayName := by
  obtain ⟨label, hl, rfl⟩ := h
  have hbucket : ∀ bucket : String,
      D.Rel (c.displayName ++ ": " ++ bucket) (label ++ ": " ++ bucket) :=
    fun bucket => D.append (D.append hl (D.refl _)) (D.refl bucket)
  obtain ⟨_, _, _, _, _, _, _, _, _, _, _, binning, unit, _, _, _, _, _⟩ := c
  have hbinning : ∀ {a b : String} (binning : Binning), D.Rel a b →
      D.Rel (a ++ ": " ++ binning.displayName) (b ++ ": " ++ binning.displayName) :=
    fun _ h => D.append (D.append h (D.refl _)) (D.refl _)
  cases unit with
  | none => cases binning with
    | none => exact hl
    | some binning => exact hbinning binning hl
  | some unit =>
    cases binning with
    | none => cases unit <;> first | exact hl | exact hbucket _
    | some binning =>
      cases unit <;> first | exact hbinning binning hl | exact hbinning binning (hbucket _)

theorem Like.find? (h : List.Forall₂ D.Like columns columns') (name : String) :
    Option.Rel D.Like (columns.find? (·.name == name)) (columns'.find? (·.name == name)) := by
  induction h with
  | nil => exact .none
  | cons hcd _ ih =>
    rw [List.find?_cons, List.find?_cons, hcd.name_eq]
    split
    · exact .some hcd
    · exact ih

theorem Like.dedupe (h : List.Forall₂ D.Like columns columns') :
    List.Forall₂ D.Like (dedupe columns) (dedupe columns') :=
  dedupe_forall₂ (fun _ _ h => h.name_eq)
    (fun _ _ name h => h.map (f := fun c => { c with name }) fun _ _ => rfl) h

/-- Labels that are the same. -/
def same : LabelRelation := ⟨Eq, fun _ => rfl, by rintro _ _ _ _ rfl rfl; rfl⟩

theorem Like.eq (h : same.Like c d) : c = d := by
  obtain ⟨_, hl, rfl⟩ := h
  cases hl
  rfl

theorem like_same : same.Like = Eq := by
  funext c d
  exact propext ⟨Like.eq, fun h => h ▸ .refl c⟩

theorem Like.list_eq (h : List.Forall₂ same.Like columns columns') : columns = columns' :=
  List.forall₂_eq_eq_eq ▸ h.imp fun _ _ h => Like.eq h

end LabelRelation

end ResultSchema
