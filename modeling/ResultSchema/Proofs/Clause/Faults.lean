import ResultSchema.Clause.Aggregation
import ResultSchema.Proofs.Json.Faults
import ResultSchema.Reference.ColumnRef

/-! # Faults in references and clauses

Every reader below a stage reports faults inside the value that it was given. The arguments of an
array are numbered with its tag counted, so the first one is a step of index one away.
-/

namespace ResultSchema

variable {loc : Location}

theorem Binning.read_faults (v : Json) (loc : Location) : FaultsWithin v loc (read v loc) :=
  .bind (FailsOnly.require _ _) fun _ _ =>
    .bind (FailsOnly.require _ _) fun _ _ => .ok _

namespace FieldOptions

theorem readEntry_faults {entries : List (String × Json)} {e : String × Json}
    (he : e ∈ entries) (o : FieldOptions) : FaultsWithin (.obj entries) loc (readEntry loc o e) := by
  obtain ⟨key, v⟩ := e
  unfold readEntry
  dsimp only
  split
  case h_5 =>
    exact .bind (.key he (Binning.read_faults v _)) fun _ _ => .ok _
  case h_6 =>
    split
    · exact .ok _
    · exact .ok _
  all_goals exact .bind (.key he (.require _ _)) fun _ _ => .ok _

theorem read_faults (v : Json) (loc : Location) : FaultsWithin v loc (read v loc) := by
  unfold read
  split
  · exact .ok _
  · exact .foldlM (fun o _ he => readEntry_faults he o) _
  · exact .own _

end FieldOptions

theorem FieldOptions.readArg_faults {α : Type} (tag : Json) (args : List Json)
    {next : FieldOptions → Reading α} (hnext : ∀ o, FaultsWithin (.arr (tag :: args)) loc (next o)) :
    FaultsWithin (.arr (tag :: args)) loc (match args[1]? with
      | some v => read v (loc.index 2) >>= next
      | none => pure {} >>= next) := by
  cases hitem : args[1]? with
  | none => exact hnext {}
  | some v =>
    have hplace : (tag :: args)[2]? = some v := hitem
    exact .bind (.index hplace (read_faults v _)) fun o _ => hnext o

theorem FieldRef.readArgs_faults (tag : Json) (args : List Json) :
    FaultsWithin (.arr (tag :: args)) loc (readArgs args loc (.arr (tag :: args))) := by
  refine .bind (.require _ _) fun id _ => FieldOptions.readArg_faults tag args fun options => ?_
  split
  · exact .own _
  · exact .ok _

theorem ColumnRef.read_faults (v : Json) (loc : Location) : FaultsWithin v loc (read v loc) := by
  refine .requireArray ?_
  rintro items rfl
  split
  · exact .bind (FieldRef.readArgs_faults _ _) fun _ _ => .ok _
  · exact .bind (.require _ _) fun _ _ => FieldOptions.readArg_faults _ _ fun _ => .ok _
  · exact .bind (.require _ _) fun _ _ => .ok _
  · exact .own _

namespace Clause

/-- The faults of reading a clause are inside it, wherever it stands. -/
def Faithful (v : Json) : Prop := ∀ loc, FaultsWithin v loc (read v loc)

section Parts

variable {v : Json} {items : List Json} {i : Nat}

theorem getElem?_of_drop {rest : List Json} (h : items.drop i = v :: rest) :
    items[i]? = some v ∧ items.drop (i + 1) = rest := by
  constructor
  · rw [← List.head?_drop, h, List.head?_cons]
  · rw [← List.tail_drop, h, List.tail_cons]

theorem readArgs_faults {args : List Json} (h : items.drop i = args)
    (hargs : ∀ v ∈ args, Faithful v) : FaultsWithin (.arr items) loc (readArgs i args loc) := by
  induction args generalizing i with
  | nil =>
    rw [readArgs]
    exact .ok _
  | cons v rest ih =>
    obtain ⟨hv, hrest⟩ := List.forall_mem_cons.mp hargs
    obtain ⟨hitem, hdrop⟩ := getElem?_of_drop h
    rw [readArgs]
    exact .bind (.index hitem (hv _)) fun _ _ => .bind (ih hdrop hrest) fun _ _ => .ok _

theorem readBranch_faults {pair : Json} (h : pair.Throughout Faithful) (loc : Location) :
    FaultsWithin pair loc (readBranch pair loc) := by
  unfold readBranch
  split
  · rename_i condition result
    have hcondition : Faithful condition := (h.inside (s := .index 0) (.index rfl)).here
    have hresult : Faithful result := (h.inside (s := .index 1) (.index rfl)).here
    exact .bind (.index rfl (hcondition _)) fun _ _ =>
      .bind (.index rfl (hresult _)) fun _ _ => .ok _
  · exact .own _

theorem readBranches_faults {pairs : List Json} (h : items.drop i = pairs)
    (hpairs : ∀ pair ∈ pairs, pair.Throughout Faithful) :
    FaultsWithin (.arr items) loc (readBranches i pairs loc) := by
  induction pairs generalizing i with
  | nil =>
    rw [readBranches]
    exact .ok _
  | cons pair rest ih =>
    obtain ⟨hpair, hrest⟩ := List.forall_mem_cons.mp hpairs
    obtain ⟨hitem, hdrop⟩ := getElem?_of_drop h
    rw [readBranches]
    exact .bind (.index hitem (readBranch_faults hpair _)) fun _ _ =>
      .bind (ih hdrop hrest) fun _ _ => .ok _

theorem readDefault_faults {whole entries : List (String × Json)} (h : entries ⊆ whole)
    (hentries : ∀ e ∈ entries, Faithful e.2) :
    FaultsWithin (.obj whole) loc (readDefault entries loc) := by
  induction entries with
  | nil =>
    rw [readDefault]
    exact .ok _
  | cons e rest ih =>
    obtain ⟨key, v⟩ := e
    obtain ⟨hv, hrest⟩ := List.forall_mem_cons.mp hentries
    obtain ⟨hmem, hsub⟩ := List.cons_subset.mp h
    rw [readDefault]
    split
    · rename_i hkey
      exact .map (.key (hkey ▸ hmem) (hv _)) _
    · exact ih hsub hrest

theorem readCase_faults (tag : Json) (args : List Json)
    (h : ∀ v ∈ args, v.Throughout Faithful) :
    FaultsWithin (.arr (tag :: args)) loc (readCase args loc (.arr (tag :: args))) := by
  unfold readCase
  split
  · rename_i pairs rest
    obtain ⟨hpairs, hrest⟩ := List.forall_mem_cons.mp h
    have hbranches : FaultsWithin (.arr pairs) (loc.index 1) (readBranches 0 pairs (loc.index 1)) :=
      readBranches_faults rfl fun pair hpair => by
        obtain ⟨s, hs⟩ := Json.exists_leads_of_mem hpair
        exact hpairs.inside hs
    refine .bind (.index rfl hbranches) fun branches _ => .bind ?_ fun fallback _ => .ok _
    unfold readFallback
    split
    · rename_i entries others
      have hoptions := hrest _ List.mem_cons_self
      exact .index rfl (readDefault_faults (List.Subset.refl entries) fun e he =>
        (hoptions.inside (s := .key e.1) (.key he)).here)
    · exact .ok _
  · exact .own _

end Parts

theorem faithful_of_inside (v : Json)
    (h : ∀ (s : Step) (u : Json), s.Leads v u → u.Throughout Faithful) : Faithful v := by
  intro loc
  unfold read
  split
  · rename_i op args
    have hargs (u : Json) (hu : u ∈ args) : u.Throughout Faithful := by
      obtain ⟨s, hs⟩ := Json.exists_leads_of_mem (List.mem_cons_of_mem (.str op) hu)
      exact h s u hs
    split
    · exact .map (FieldRef.readArgs_faults _ _) _
    · exact .bind (.require _ _) fun _ _ => FieldOptions.readArg_faults _ _ fun _ => .ok _
    · exact .bind (.require _ _) fun _ _ => .ok _
    · split
      · exact .ok _
      · exact .own _
    · split
      · exact .own _
      · rename_i inner rest
        have hinner : Faithful inner := (hargs inner List.mem_cons_self).here
        exact .bind (.index rfl (hinner _)) fun _ _ => .ok _
    · exact readCase_faults _ _ hargs
    · exact readCase_faults _ _ hargs
    · have hdrop : (.str op :: args).drop 1 = args := rfl
      exact .map (readArgs_faults hdrop fun u hu => (hargs u hu).here) _
  · exact .own _
  · split
    · exact .ok _
    · exact .own _

theorem read_faults (v : Json) (loc : Location) : FaultsWithin v loc (read v loc) :=
  (Json.throughout_of_inside v faithful_of_inside).here loc

end Clause

theorem Aggregation.read_faults (v : Json) (loc : Location) : FaultsWithin v loc (read v loc) := by
  unfold read
  split
  · exact .own _
  · exact .bind (.index rfl (Clause.read_faults _ _)) fun _ _ => .ok _
  · exact .bind (Clause.read_faults v loc) fun _ _ => .ok _

end ResultSchema
