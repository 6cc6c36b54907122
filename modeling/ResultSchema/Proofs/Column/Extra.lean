import ResultSchema.Column.Document
import ResultSchema.Proofs.Outcome

/-! # Extra keys of column descriptors

The extra keys of a descriptor should be keys that it has no field for. Those of a descriptor
that was read are such keys, and then no key is written twice.
-/

namespace ResultSchema.Column

/-- The keys that a descriptor has a field for. -/
def modelledKeys : List String :=
  ["name", "display_name", "base_type", "effective_type", "coercion_strategy", "source",
    "field_ref", "ident", "id", "source_alias", "fk_field_id", "binning_info", "unit",
    "converted_timezone", "aggregation_index", "expression_name", "options"]

/-- No extra key is one that the descriptor has a field for. -/
def ExtraApart (c : Column) : Prop := ∀ key ∈ c.extra.keys, key ∉ modelledKeys

instance (c : Column) : Decidable c.ExtraApart :=
  inferInstanceAs (Decidable (∀ key ∈ c.extra.keys, _))

variable {c d : Column}

theorem extraApart_of_extra_empty (h : c.extra = .empty) : c.ExtraApart := by
  intro key hkey
  rw [h] at hkey
  cases hkey

theorem keys_present_sublist {α : Type} (key : String) (write : α → Json) (o : Option α) :
    ((o.map fun a => (key, write a)).toList.map Prod.fst).Sublist [key] := by
  cases o with
  | none => exact List.nil_sublist _
  | some a => exact List.Sublist.refl _

theorem keys_entries_sublist (c : Column) :
    (c.entries.map Prod.fst).Sublist (modelledKeys ++ c.extra.keys) := by
  have hoptions : ((if c.options.isEmpty then [] else [("options", Json.obj c.options.entries)]).map
      Prod.fst).Sublist ["options"] := by
    split
    · exact List.nil_sublist _
    · exact List.Sublist.refl _
  simp only [entries, List.map_append]
  -- The keys are compared part by part, in the order in which they are written.
  show List.Sublist _ (["name", "display_name", "base_type"] ++ ["effective_type"]
    ++ ["coercion_strategy"] ++ ["source"] ++ ["field_ref"] ++ ["ident"] ++ ["id"]
    ++ ["source_alias"] ++ ["fk_field_id"] ++ ["binning_info"] ++ ["unit"]
    ++ ["converted_timezone"] ++ ["aggregation_index"] ++ ["expression_name"] ++ ["options"]
    ++ c.extra.keys)
  refine List.Sublist.append (List.Sublist.append ?_ hoptions) (List.Sublist.refl _)
  repeat' refine List.Sublist.append ?_ (keys_present_sublist _ _ _)
  exact List.Sublist.refl _

theorem keys_entries_nodup (h : c.ExtraApart) : (c.entries.map Prod.fst).Nodup := by
  refine (keys_entries_sublist c).nodup (List.nodup_append.mpr ⟨by decide, c.extra.nodup, ?_⟩)
  rintro key hmodelled _ hextra rfl
  exact h key hextra hmodelled

theorem fit_eq_ok_iff {o : Option Column} :
    (o.map Except.ok).getD (.error Unfit.shape) = .ok d ↔ o = some d := by
  cases o <;> simp

/-- An entry is either a fact of the descriptor or an extra entry under a key of its own. -/
theorem extra_readEntry {e : String × Json} (h : c.readEntry e = .ok d) :
    d.extra = c.extra ∨ e.1 ∉ modelledKeys ∧ d.extra = c.extra.insert e.1 e.2 := by
  obtain ⟨key, v⟩ := e
  unfold readEntry at h
  dsimp only at h
  split at h
  case h_7 =>
    refine .inl ?_
    split at h
    · cases h
      rfl
    · split at h <;> cases h
      rfl
  case h_18 =>
    cases h
    refine .inr ⟨?_, rfl⟩
    simp only [modelledKeys, List.mem_cons, List.not_mem_nil, or_false]
    rintro (h | h | h | h | h | h | h | h | h | h | h | h | h | h | h | h | h) <;> contradiction
  all_goals
    obtain ⟨fact, -, rfl⟩ := Option.map_eq_some_iff.mp (fit_eq_ok_iff.mp h)
    exact .inl rfl

theorem ExtraApart.readEntry {e : String × Json} (hc : c.ExtraApart)
    (h : c.readEntry e = .ok d) : d.ExtraApart := by
  intro key hkey
  rcases extra_readEntry h with hextra | ⟨hnew, hextra⟩
  · exact hc key (hextra ▸ hkey)
  · rw [hextra, OrderedMap.mem_keys_insert] at hkey
    rcases hkey with hkey | rfl
    · exact hc key hkey
    · exact hnew

theorem extraApart_of_ofJson {v : Json} (h : ofJson v = .ok c) : c.ExtraApart := by
  unfold ofJson at h
  split at h
  · exact foldlM_preserves (fun _ _ _ _ hb => hb.readEntry) (extraApart_of_extra_empty rfl) h
  · cases h

theorem extraApart_of_listOfJson {v : Json} {columns : List Column}
    (h : listOfJson v = .ok columns) (hc : c ∈ columns) : c.ExtraApart := by
  unfold listOfJson at h
  split at h
  · obtain ⟨item, -, hitem⟩ := exists_of_mem_mapM h hc
    exact extraApart_of_ofJson hitem
  · cases h

end ResultSchema.Column
