import ResultSchema.Proofs.Resolve.Memo
import ResultSchema.Proofs.Resolve.Reselected

/-! # Stages stacked on a stage

Stages that select and declare nothing pass on the columns of the stage below them. All but the
first of a stack change nothing any more, and a column is reached through all of them by the
name that the selecting stage gave it.
-/

namespace ResultSchema

namespace Column

theorem reselected_reselected (c : Column) : c.reselected.reselected = c.reselected := by
  have href : c.reselected.reselected.fieldRef = c.reselected.fieldRef := by
    unfold reselected
    dsimp only
    rcases c.fieldRef with _ | ⟨⟨_ | _, _⟩⟩ | _ | _ <;> rfl
  calc c.reselected.reselected
    _ = { c.reselected with fieldRef := c.reselected.reselected.fieldRef } := rfl
    _ = c.reselected := by rw [href]

def passedOn (n : Nat) (c : Column) : Column :=
  match n with
  | 0 => c
  | _ + 1 => c.reselected

@[simp] theorem passedOn_zero : passedOn 0 = fun c => c := rfl

@[simp] theorem name_passedOn (n : Nat) (c : Column) : (c.passedOn n).name = c.name := by
  cases n <;> rfl

theorem reselected_passedOn (n : Nat) (c : Column) :
    (c.passedOn n).reselected = c.passedOn (n + 1) := by
  cases n with
  | zero => rfl
  | succ n => exact c.reselected_reselected

theorem map_reselected_passedOn (n : Nat) (x : Except SchemaError (List Column)) :
    (·.map reselected) <$> (·.map (passedOn n)) <$> x = (·.map (passedOn (n + 1))) <$> x := by
  have hcomp : reselected ∘ passedOn n = passedOn (n + 1) := funext (reselected_passedOn n)
  rw [Functor.map_map]
  simp only [List.map_map, hcomp]

theorem referredBy_passedOn (n : Nat) (c : Column) :
    (c.passedOn n).withoutProvenance.referredBy ⟨.name c.name, {}⟩ = { c with
      fieldRef := some (.byName c.name {})
      source := none
      aggregationIndex := none
      expressionName := if n = 0 then c.expressionName else none } := by
  have hbase : ((c.passedOn n).withoutProvenance.referredBy ⟨.name c.name, {}⟩).baseType =
      c.baseType := by
    cases n <;> exact ite_self _
  calc (c.passedOn n).withoutProvenance.referredBy ⟨.name c.name, {}⟩
    _ = { c with
          fieldRef := some (.byName c.name {})
          source := none
          aggregationIndex := none
          expressionName := if n = 0 then c.expressionName else none
          baseType := ((c.passedOn n).withoutProvenance.referredBy
            ⟨.name c.name, {}⟩).baseType } := by cases n <;> rfl
    _ = _ := by rw [hbase]

end Column

namespace Stage

/-- Stages on top of `s` that satisfy `P`, each reading the one below it. -/
inductive StackedOn (P : Stage → Prop) (s : Stage) : Nat → Stage → Prop
  | base : StackedOn P s 0 s
  | step {n : Nat} {t u : Stage} : StackedOn P s n t → u.sourceStage? = some t → P u →
      StackedOn P s (n + 1) u

/-- The stage selects and declares nothing. -/
structure Forwards (s : Stage) : Prop where
  selects : s.selects = false
  metadata : s.metadata = []

variable {lexicon : Lexicon} {s t : Stage} {n : Nat} {columns : List Column} {c : Column}

theorem visible_of_stackedOn (h : StackedOn Forwards s n t) :
    t.visible lexicon = (·.map (Column.passedOn n)) <$> s.visible lexicon := by
  induction h with
  | base => cases s.visible lexicon <;> simp
  | step _ hsource ht ih =>
    rw [visible_of_not_selects ht.selects ht.metadata hsource, ih, Column.map_reselected_passedOn]

/-- The name of each column of a selecting stage reaches that column through any number of stages
that forward it, whatever is remembered. Only where the column comes from is not carried over. -/
theorem field_of_stackedOn (hselects : s.selects) (hs : s.columns lexicon = .ok columns)
    (h : StackedOn Forwards s (n + 1) t) {i : Nat} (hc : columns[i]? = some c) :
    let recalled : Column := { c with
      fieldRef := some (.byName c.name {})
      source := none
      aggregationIndex := none
      expressionName := if n = 0 then c.expressionName else none }
    (t.scope lexicon).field ⟨.name c.name, {}⟩ = .ok recalled ∧
      ∀ root path memo, root.at? path = some t → memo.Sound lexicon root →
        (Remembering.run ((Remembering.survey lexicon t path).scope.field ⟨.name c.name, {}⟩)
          memo).1 = .ok recalled := by
  obtain _ | ⟨hbelow, hsource, ht⟩ := h
  have hinner : _ = (·.map (Column.passedOn n)) <$> s.visible lexicon := visible_of_stackedOn hbelow
  rw [visible_of_selects hselects, hs] at hinner
  -- The stage has told its names apart, so that no other column is found under this one.
  have hnames : ((columns.map (Column.passedOn n)).map (·.name)).Nodup := by
    simpa [Function.comp_def] using names_columns_nodup hs
  have hmem : c.passedOn n ∈ columns.map (Column.passedOn n) :=
    List.mem_map_of_mem (List.mem_of_getElem? hc)
  have hfield := field_hinted ht.metadata hsource hinner hnames hmem none
  rw [Column.name_passedOn, Column.referredBy_passedOn] at hfield
  refine ⟨hfield, fun root path memo hroot hm => ?_⟩
  rw [Remembering.run_field lexicon hroot hm, hfield]

def countedTwice : Stage := counted.withAggregation { clause := .call "count" [] }

theorem field_of_stackedOn_countedTwice :
    countedTwice.columns priceLexicon = .ok [countColumn, { countColumn with
        name := "count_2", fieldRef := some (.aggregation 1), aggregationIndex := some 1 }] ∧
      ((ofQuery (.structural (ofQuery (.structural countedTwice)))).scope priceLexicon).field
        ⟨.name "count_2", {}⟩ = .ok { countColumn with
          name := "count_2", fieldRef := some (.byName "count_2" {}),
          source := none, aggregationIndex := none } := by
  have hcolumns : countedTwice.columns priceLexicon = .ok [countColumn, { countColumn with
      name := "count_2", fieldRef := some (.aggregation 1), aggregationIndex := some 1 }] := by
    decide +kernel
  have hstack : StackedOn Forwards countedTwice 2
      (ofQuery (.structural (ofQuery (.structural countedTwice)))) :=
    .step (.step .base rfl ⟨rfl, rfl⟩) rfl ⟨rfl, rfl⟩
  exact ⟨hcolumns, (field_of_stackedOn rfl hcolumns hstack (i := 1) rfl).1⟩

end Stage

end ResultSchema
