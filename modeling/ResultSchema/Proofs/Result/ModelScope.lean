import ResultSchema.Proofs.Names.Unique
import ResultSchema.Proofs.Result.Annotate
import ResultSchema.Proofs.Result.Merge

/-! # Idents of a model

A model scopes the idents of its columns. What comes after it keeps them so, but for the
driver: an ident that the driver gives takes the place of the scoped one.
-/

namespace ResultSchema

/-- The ident, if there is one, is scoped to the model. -/
def Ident.ScopedTo (entityId : String) (ident : Option String) : Prop :=
  ∀ i ∈ ident, (stripModel? entityId i).isSome

/-- The column owns its ident, or the ident is scoped to the model. -/
def Column.ScopedTo (entityId : String) (c : Column) : Prop :=
  c.ownsIdent = false → Ident.ScopedTo entityId c.ident

instance (entityId : String) (ident : Option String) : Decidable (Ident.ScopedTo entityId ident) :=
  inferInstanceAs (Decidable (∀ i ∈ ident, _))

instance (entityId : String) (c : Column) : Decidable (c.ScopedTo entityId) :=
  inferInstanceAs (Decidable (_ → _))

theorem forall_mem_zip_of_map_eq {α β γ : Type} {f : α → β} {l k : List α}
    (h : l.map f = k.map f) (other : List γ) (P : β → γ → Prop) :
    (∀ p ∈ l.zip other, P (f p.1) p.2) ↔ ∀ p ∈ k.zip other, P (f p.1) p.2 := by
  have hzip : (l.zip other).map (Prod.map f id) = (k.zip other).map (Prod.map f id) := by
    rw [← List.zip_map_left, ← List.zip_map_left, h]
  exact forall_mem_of_map_eq hzip fun p => P p.1 p.2

namespace Merge

variable {entityId : String}

theorem withExecuted_scopedTo_iff {c : Column} {raw : RawColumn} (hc : c.ScopedTo entityId) :
    (c.withExecuted raw).ScopedTo entityId ↔
      (c.ownsIdent = false → Ident.ScopedTo entityId raw.ident?) := by
  refine forall_congr' fun howns => ?_
  have hident : (c.withExecuted raw).ident = raw.ident?.or c.ident := by
    show c.mergedIdent raw.ident? = _
    unfold Column.mergedIdent
    rw [show c.ownsIdent = false from howns]
    rfl
  rw [hident]
  cases raw.ident? with
  | none => exact ⟨fun _ _ h => (nomatch h), fun _ => hc howns⟩
  | some ident => exact Iff.rfl

/-- Laid over scoped columns, the driver's columns leave them scoped exactly when the idents
that they give to columns without an ident of their own are scoped. -/
theorem executed_scopedTo_iff {columns : List Column} {raws : List RawColumn}
    (h : ∀ c ∈ columns, c.ScopedTo entityId) :
    (∀ c ∈ executed columns raws, c.ScopedTo entityId) ↔
      ∀ p ∈ columns.zip raws, p.1.ownsIdent = false → Ident.ScopedTo entityId p.2.ident? := by
  fun_induction executed columns raws with
  | case1 c columns raw raws ih =>
    obtain ⟨hc, hrest⟩ := List.forall_mem_cons.mp h
    rw [List.zip_cons_cons, List.forall_mem_cons, List.forall_mem_cons,
      withExecuted_scopedTo_iff hc, ih hrest]
  | case2 columns => simpa using h
  | case3 raws => simp

end Merge

namespace Annotator

variable {a : Annotator} {s : Stage} {results : ExecutionResult} {columns out : List Column}
variable {entityId : String}

theorem modelColumn_scopedTo {c d : Column} (h : a.modelColumn entityId c = .ok d) :
    d.ScopedTo entityId := by
  unfold modelColumn at h
  split at h
  · cases h
    split
    · rename_i howns
      intro hd
      rw [howns] at hd
      cases hd
    · intro _ i hi
      cases hi
      exact Ident.isSome_stripModel?_modelScoped entityId _
  · rename_i hnone
    split at h
    · cases h
      intro _ i hi
      rw [hnone] at hi
      cases hi
    · cases h

theorem modelColumns_scopedTo (hentity : s.card.bind (·.entityId) = some entityId)
    (h : a.modelColumns s columns = .ok out) : ∀ c ∈ out, c.ScopedTo entityId := by
  unfold modelColumns at h
  rw [hentity] at h
  intro d hd
  obtain ⟨c, -, hc⟩ := exists_of_mem_mapM h hd
  exact modelColumn_scopedTo hc

theorem chainColumns_scopedTo (hmodel : s.isModel)
    (hentity : s.card.bind (·.entityId) = some entityId)
    (h : a.chainColumns results s = .ok columns) : ∀ c ∈ columns, c.ScopedTo entityId := by
  rw [chainColumns_eq] at h
  obtain ⟨-, own, modelled, -, -, hm, rfl⟩ := columnsOver_eq_ok_iff.mp h
  rw [if_pos hmodel] at hm
  exact (forall_mem_dedupe (fun _ _ => rfl) modelled).mpr (modelColumns_scopedTo hentity hm)

/-- The columns of a result of a model are scoped to the model exactly when the idents that the
driver gives to columns without an ident of their own are. -/
theorem annotate_scopedTo_iff {r : AnnotatedResult} (hmodel : s.isModel)
    (hentity : s.card.bind (·.entityId) = some entityId)
    (h : a.annotate (.structural s) results = .ok r) :
    (∀ c ∈ r.columns, c.ScopedTo entityId) ↔
      ∀ p ∈ r.columns.zip results.columns,
        p.1.ownsIdent = false → Ident.ScopedTo entityId p.2.ident? := by
  obtain ⟨hc, -⟩ := annotate_eq_ok_iff.mp h
  obtain ⟨-, chain, hchain, hcolumns⟩ := columnInfo_structural_eq_ok_iff.mp hc
  have hscoped : ∀ c ∈ chain, c.ScopedTo entityId := chainColumns_scopedTo hmodel hentity hchain
  have howns : r.columns.map (·.ownsIdent) = chain.map (·.ownsIdent) := by
    rw [← hcolumns, map_dedupe fun _ _ => rfl, Merge.map_executed fun _ _ => rfl]
  calc (∀ c ∈ r.columns, c.ScopedTo entityId)
    _ ↔ ∀ c ∈ Merge.executed chain results.columns, c.ScopedTo entityId := by
      rw [← hcolumns]
      exact forall_mem_dedupe (fun _ _ => rfl) _
    _ ↔ ∀ p ∈ chain.zip results.columns,
        p.1.ownsIdent = false → Ident.ScopedTo entityId p.2.ident? :=
      Merge.executed_scopedTo_iff hscoped
    _ ↔ _ := (forall_mem_zip_of_map_eq howns results.columns fun owns raw =>
      owns = false → Ident.ScopedTo entityId raw.ident?).symm

def nameIdent : Annotator where
  lexicon := {
    catalog := fun id =>
      if id = 2 then
        some { id, name := "name", displayName := "Name", baseType := .text, ident := some "f-name" }
      else none
    humanizer := id }

def nameModel : Stage where
  source := .table 1
  card := some { entityId := some "e", model := true }
  fields := [.field ⟨.id 2, {}⟩]

def firstIdent : ExecutionResult where
  columns := [{ name := "name", extra := .ofList [("ident", .str "x")] }, { name := "name" }]

theorem annotate_scopedTo_iff_of_group :
    ∃ r, nameIdent.annotate
        (.structural { nameModel with breakouts := [{ clause := .field ⟨.id 2, {}⟩ }] })
        firstIdent = .ok r ∧
      r.columns.map (·.ident) = [some "f-name", some "model[e]__f-name"] ∧
      ∀ c ∈ r.columns, c.ScopedTo "e" := by
  have h : (nameIdent.annotate
      (.structural { nameModel with breakouts := [{ clause := .field ⟨.id 2, {}⟩ }] })
      firstIdent).toOption.map (fun r => (r.columns.map (·.ident),
        decide (∀ p ∈ r.columns.zip firstIdent.columns,
          p.1.ownsIdent = false → Ident.ScopedTo "e" p.2.ident?))) =
      some ([some "f-name", some "model[e]__f-name"], true) := by decide +kernel
  obtain ⟨r, hr, hview⟩ := exists_of_toOption_map_eq_some h
  obtain ⟨hidents, hgiven⟩ := Prod.mk.inj hview
  exact ⟨r, hr, hidents, (annotate_scopedTo_iff rfl rfl hr).mpr (of_decide_eq_true hgiven)⟩

/-- As a listed field, the name has the driver's ident, which is not scoped to the model. -/
theorem annotate_replaces_modelIdent :
    ∃ r, nameIdent.annotate (.structural nameModel) firstIdent = .ok r ∧
      nameModel.isModel ∧ nameModel.card.bind (·.entityId) = some "e" ∧
      ∃ c ∈ r.columns, c.source = some .fields ∧ c.ident = some "x" ∧
        Ident.stripModel? "e" "x" = none := by
  have h : (nameIdent.annotate (.structural nameModel) firstIdent).toOption.map
      (·.columns.map fun c => (c.source, c.ident)) = some [(some .fields, some "x")] := by
    decide +kernel
  obtain ⟨r, hr, hview⟩ := exists_of_toOption_map_eq_some h
  have hmem : (some ColumnSource.fields, some "x") ∈ r.columns.map fun c => (c.source, c.ident) :=
    hview ▸ List.mem_singleton_self _
  obtain ⟨c, hc, hfacts⟩ := List.mem_map.mp hmem
  obtain ⟨hsource, hident⟩ := Prod.mk.inj hfacts
  exact ⟨r, hr, rfl, rfl, c, hc, hsource, hident, by decide +kernel⟩

end Annotator

end ResultSchema
