import ResultSchema.Proofs.Resolve.Links
import ResultSchema.Proofs.Result.Annotate
import ResultSchema.Proofs.Result.Merge
import ResultSchema.Proofs.Result.Native

/-! # Links of result columns

The links of the columns of a query, and with them the number of the columns, follow from the
stages on its chain and from the driver's columns.
-/

namespace ResultSchema

namespace Native

variable {lexicon : Lexicon} {results : ExecutionResult}

def rawLink (raw : RawColumn) : Link := ⟨raw.id.isSome, none⟩

theorem link_column {raw : RawColumn} {sample : Option Json} {unique : String} {c : Column}
    (h : column lexicon raw sample unique = .ok c) : c.link = rawLink raw := by
  unfold column at h
  unfold rawLink
  cases hid : raw.id with
  | none =>
    rw [hid] at h
    cases h
    unfold Column.link ofName
    dsimp only
    split <;> rfl
  | some id =>
    rw [hid] at h
    obtain ⟨d, -, h⟩ := bind_eq_ok_iff.mp h
    cases h
    rfl

theorem map_link_columns {columns : List Column}
    (h : Native.columns lexicon results = .ok columns) :
    columns.map (·.link) = results.columns.map rawLink := by
  rw [map_columns (k := rawLink ∘ Prod.fst) (fun _ _ _ _ => link_column) h, ← List.map_map,
    List.map_fst_zip (by simp [ExecutionResult.columnNames])]

end Native

namespace Stage

variable (results : ExecutionResult)

/-- The links that a stage reads from its source, given those of its source stage. -/
def sourceLinks (s : Stage) (inner : Option (List Link)) : List Link :=
  match s.source with
  | .stage _ => (inner.getD []).map Link.reselected
  | .table _ | .native _ => results.columns.map Native.rawLink
  | .none => []

/-- The links that a stage passes on when it selects nothing: those of its source, else those
of the declared columns. -/
def passedLinks (s : Stage) (inner : Option (List Link)) : List Link :=
  let source := s.sourceLinks results inner
  if source.isEmpty then s.metadata.map (·.link) else source

/-- The links of the columns of a stage. -/
def links : Stage → List Link := foldChain fun s inner =>
  if s.selects then s.selectedLinks else s.passedLinks results inner

theorem links_eq (s : Stage) : s.links results = if s.selects then s.selectedLinks
    else s.passedLinks results (s.sourceStage?.map (links results)) := foldChain_eq _ s

end Stage

namespace Annotator

variable {a : Annotator} {s : Stage} {results : ExecutionResult} {columns : List Column}

def LinksOf (x : Except SchemaError (List Column)) (links : List Link) : Prop :=
  ∀ columns, x = .ok columns → columns.map (·.link) = links

theorem reported_links : LinksOf (a.reported results) (results.columns.map Native.rawLink) := by
  intro columns h
  unfold reported at h
  split at h
  · rename_i hnone
    cases h
    rw [List.isEmpty_iff.mp hnone]
    rfl
  · exact Native.map_link_columns h

variable {inner : Option (Except SchemaError (List Column))} {innerLinks : Option (List Link)}

theorem sourceColumns_links (h : Option.Rel LinksOf inner innerLinks) :
    LinksOf (a.sourceColumns results s inner) (s.sourceLinks results innerLinks) := by
  intro columns hc
  unfold sourceColumns at hc
  unfold Stage.sourceLinks
  cases hsource : s.source with
  | none =>
    rw [hsource] at hc
    cases hc
    rfl
  | native _ =>
    rw [hsource] at hc
    exact reported_links columns hc
  | table _ =>
    rw [hsource] at hc
    obtain ⟨native, hn, rfl⟩ := map_eq_ok_iff.mp hc
    rw [List.map_map]
    exact reported_links native hn
  | stage _ =>
    rw [hsource] at hc
    cases h with
    | none =>
      cases hc
      rfl
    | some h =>
      obtain ⟨read, hr, rfl⟩ := map_eq_ok_iff.mp hc
      rw [Option.getD_some, ← h read hr, List.map_map, List.map_map]
      exact List.map_congr_left fun c _ => c.link_reselected

theorem passedThrough_links (h : Option.Rel LinksOf inner innerLinks) :
    LinksOf (a.passedThrough results s inner) (s.passedLinks results innerLinks) := by
  intro out hout
  obtain ⟨columns, hc, hout⟩ := bind_eq_ok_iff.mp hout
  cases hout
  unfold Stage.passedLinks
  rw [← sourceColumns_links h columns hc]
  cases columns with
  | nil => rfl
  | cons c columns => exact Merge.map_overlaid (fun _ _ => rfl) _ _

theorem columnsOver_links (h : Option.Rel LinksOf inner innerLinks) :
    LinksOf (a.columnsOver results s inner)
      (if s.selects then s.selectedLinks else s.passedLinks results innerLinks) := by
  intro out hout
  obtain ⟨selected, own, modelled, hs, hown, hmodelled, rfl⟩ := columnsOver_eq_ok_iff.mp hout
  rw [map_dedupe fun _ _ => rfl, map_modelled (fun _ _ => rfl) hmodelled]
  split at hown
  · rename_i hselects
    rw [hown, Merge.map_declared fun _ _ => rfl, if_pos hselects]
    exact Stage.map_link_columns hs
  · rename_i hselects
    rw [if_neg hselects]
    exact passedThrough_links h own hown

theorem chainColumns_links (s : Stage) : LinksOf (a.chainColumns results s) (s.links results) :=
  Stage.foldChain_rel (V := LinksOf) (f := a.columnsOver results)
    (fun _ _ _ h => columnsOver_links h) s

theorem columnInfo_links : LinksOf (a.columnInfo (.structural s) results) (s.links results) := by
  intro columns h
  obtain ⟨-, chain, hchain, rfl⟩ := columnInfo_structural_eq_ok_iff.mp h
  rw [map_dedupe fun _ _ => rfl, Merge.map_executed fun _ _ => rfl]
  exact chainColumns_links s chain hchain

end Annotator

end ResultSchema
