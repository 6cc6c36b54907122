import ResultSchema.Proofs.Resolve.Placed
import ResultSchema.Proofs.Resolve.Selected
import ResultSchema.Proofs.Stage.Declared

/-! # Extra keys of resolved columns

Resolution adds nothing to the extra keys of a column. What a selected column has there, it
has from a column that is declared somewhere in the stage.
-/

namespace ResultSchema

variable {Q : OrderedMap Json → Prop}

theorem Lexicon.extra_column {lexicon : Lexicon} {id : Int64} {c : Column}
    (h : lexicon.column id = .ok c) : c.extra = .empty := by
  obtain ⟨f, -, h⟩ := bind_eq_ok_iff.mp h
  obtain ⟨name, -, h⟩ := bind_eq_ok_iff.mp h
  cases h
  rfl

/-- What the columns have as extra satisfies `Q`, if there are columns. -/
def ExtrasIn (Q : OrderedMap Json → Prop) (x : Except SchemaError (List Column)) : Prop :=
  ∀ columns, x = .ok columns → ∀ c ∈ columns, Q c.extra

namespace Scope

variable {scope : Scope (Except SchemaError)} {c d : Column}

structure FindsExtras (scope : Scope (Except SchemaError)) (Q : OrderedMap Json → Prop) : Prop where
  empty : Q .empty
  metadata : ∀ c ∈ scope.stage.metadata, Q c.extra
  source : ∀ x, scope.source = some x → ExtrasIn Q x
  joins : ∀ j ∈ scope.joins, ExtrasIn Q j.columns

theorem extra_place {join : Option (Join Stage)} {f : FieldRef}
    (h : scope.place join f c = .ok d) : d.extra = c.extra := by
  rw [place_frame h]

theorem mem_of_joinOf {f : FieldRef} {join : Option (ScopedJoin (Except SchemaError))}
    (hj : scope.joinOf f = .ok join) : ∀ j ∈ join, j ∈ scope.joins := by
  rintro j rfl
  unfold Scope.joinOf at hj
  split at hj
  · obtain ⟨k, hk, hjk⟩ := map_eq_ok_iff.mp hj
    cases hjk
    rw [ofExcept_self] at hk
    unfold Scope.join at hk
    split at hk
    · rename_i hfound
      cases hk
      exact List.mem_of_find?_eq_some hfound
    · cases hk
  · cases hj

namespace FindsExtras

variable (h : scope.FindsExtras Q)

include h

theorem findNamed {join : Option (ScopedJoin (Except SchemaError))}
    (hjoin : ∀ j ∈ join, j ∈ scope.joins) {name : String} {found : Option Column}
    (hf : scope.findNamed join name = .ok found) : ∀ c ∈ found, Q c.extra := by
  rintro c rfl
  unfold Scope.findNamed at hf
  dsimp only at hf
  split at hf
  · rename_i j
    obtain ⟨columns, hc, hpick⟩ := map_eq_ok_iff.mp hf
    exact h.joins j (hjoin j rfl) columns hc c (List.mem_of_find?_eq_some hpick)
  split at hf
  · rename_i hpick
    cases hf
    exact h.metadata c (List.mem_of_find?_eq_some hpick)
  split at hf
  · rename_i x hx
    obtain ⟨columns, hc, hpick⟩ := map_eq_ok_iff.mp hf
    exact h.source x hx columns hc c (List.mem_of_find?_eq_some hpick)
  · cases hf

theorem target {join : Option (ScopedJoin (Except SchemaError))}
    (hjoin : ∀ j ∈ join, j ∈ scope.joins) {id : FieldId} (hc : scope.target join id = .ok c) :
    Q c.extra := by
  unfold Scope.target Scope.targetBy at hc
  cases id with
  | id id =>
    dsimp only at hc
    rw [ofExcept_self] at hc
    exact Lexicon.extra_column hc ▸ h.empty
  | name name =>
    obtain ⟨found, hf, rfl⟩ := map_eq_ok_iff.mp hc
    cases found with
    | none => exact h.empty
    | some c => exact h.findNamed hjoin hf c rfl

theorem field {f : FieldRef} (hc : scope.field f = .ok c) : Q c.extra := by
  obtain ⟨join, hjoin, hc⟩ := bind_eq_ok_iff.mp hc
  obtain ⟨d, hd, hc⟩ := bind_eq_ok_iff.mp hc
  rw [ofExcept_self] at hc
  rw [extra_place hc]
  exact (h.target (mem_of_joinOf hjoin) hd :)

theorem aggregation {index : Nat} {a : Aggregation} (hc : scope.aggregation index a = .ok c) :
    Q c.extra := by
  obtain ⟨description, -, hc⟩ := bind_eq_ok_iff.mp hc
  cases hc
  exact h.empty

theorem column {clause : Clause} (hc : scope.column clause = .ok c) : Q c.extra := by
  rcases Scope.column_cases hc with ⟨f, -, hc⟩ | ⟨_, _, _, _, -, -, -, rfl⟩ | ⟨_, _, -, -, hc⟩
  · exact h.field hc
  · exact h.empty
  · exact h.aggregation hc

theorem columns : ExtrasIn Q scope.columns := by
  intro columns hc
  obtain ⟨breakouts, aggregations, fields, hb, ha, hf, rfl⟩ := Scope.columns_eq_ok_iff.mp hc
  rw [forall_mem_dedupe fun _ _ => rfl]
  intro c hc
  rcases List.mem_append.mp hc with hc | hc
  · rcases List.mem_append.mp hc with hc | hc
    · obtain ⟨b, -, hbreakout⟩ := exists_of_mem_mapM hb hc
      obtain ⟨d, hd, hbreakout⟩ := bind_eq_ok_iff.mp hbreakout
      cases hbreakout
      exact (h.column hd :)
    · obtain ⟨a, -, haggregation⟩ := exists_of_mem_mapM ha hc
      exact h.aggregation haggregation
  · obtain ⟨clause, -, hlisted⟩ := exists_of_mem_mapM hf hc
    obtain ⟨d, hd, hlisted⟩ := bind_eq_ok_iff.mp hlisted
    cases hlisted
    exact (h.column hd :)

theorem exposed : ExtrasIn Q scope.exposed := by
  intro out hout
  obtain ⟨selected, hs, hout⟩ := bind_eq_ok_iff.mp hout
  split at hout
  · cases hout
    exact h.columns _ hs
  split at hout
  · cases hout
    exact h.metadata
  split at hout
  · rename_i x hx
    obtain ⟨columns, hc, rfl⟩ := map_eq_ok_iff.mp hout
    rw [List.forall_mem_map]
    exact h.source x hx columns hc
  · cases hout
    exact fun _ hc => nomatch hc

end FindsExtras

end Scope

namespace Stage

variable {lexicon : Lexicon} {s : Stage}

theorem scope_findsExtras (hempty : Q .empty) (h : s.Declares fun c => Q c.extra) :
    (s.scope lexicon).FindsExtras Q := by
  induction s using nested_induction with
  | step s hsource hjoins =>
    obtain ⟨hown, hs, hj⟩ := declares_iff.mp h
    refine ⟨hempty, ?_, ?_, ?_⟩
    · rwa [scope_stage]
    · rw [scope_source]
      intro x hx
      obtain ⟨t, ht, rfl⟩ := Option.map_eq_some_iff.mp hx
      rw [visible_eq]
      exact (hsource t ht (hs t ht)).exposed
    · rw [scope_joins]
      intro j hmem
      rcases List.mem_append.mp hmem with hmem | hmem
      · obtain ⟨j, hjoin, rfl⟩ := List.mem_map.mp hmem
        rw [visible_eq]
        exact (hjoins j hjoin (hj j hjoin)).exposed
      · cases ht : s.sourceStage? with
        | none =>
          rw [ht] at hmem
          cases hmem
        | some t =>
          rw [ht] at hmem
          exact (hsource t ht (hs t ht)).joins j hmem

theorem columns_extrasIn (hempty : Q .empty) (h : s.Declares fun c => Q c.extra) :
    ExtrasIn Q (s.columns lexicon) := (scope_findsExtras hempty h).columns

end Stage

end ResultSchema
