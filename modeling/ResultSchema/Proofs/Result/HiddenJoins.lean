import ResultSchema.Proofs.Result.Links
import ResultSchema.Stage.Build

/-! # Joins hidden in saved queries

A stage over a saved query that selects its columns shows none of the joins inside; one that
passes its source on shows those that the references of its source carry.
-/

namespace ResultSchema

namespace Annotator

variable {a : Annotator} {s : Stage} {results : ExecutionResult}

theorem annotate_links {r : AnnotatedResult} (h : a.annotate (.structural s) results = .ok r) :
    r.columns.map (·.link) = s.links results := columnInfo_links _ (annotate_eq_ok_iff.mp h).1

/-- A stage over a saved query shows only aliases of its own joins exactly when it selects its
columns, or when no link that it passes on carries another alias. -/
theorem annotate_hides_joins_iff {r : AnnotatedResult} (hcard : s.card.isSome)
    (h : a.annotate (.structural s) results = .ok r) :
    (∀ c ∈ r.columns, ∀ joinAlias, c.refAlias? = some joinAlias → s.declaresJoin joinAlias) ↔
      s.selects ∨
        ∀ l ∈ s.passedLinks results (s.sourceStage?.map (Stage.links results)),
          ∀ joinAlias, l.joinAlias = some joinAlias → s.declaresJoin joinAlias := by
  have hlinks := annotate_links h
  rw [Stage.links_eq] at hlinks
  constructor
  · intro hhides
    by_cases hselects : s.selects
    · exact .inl hselects
    rw [if_neg hselects] at hlinks
    refine .inr fun l hl joinAlias halias => ?_
    rw [← hlinks] at hl
    obtain ⟨c, hc, rfl⟩ := List.mem_map.mp hl
    exact hhides c hc joinAlias (c.joinAlias_link ▸ halias)
  · rintro hshown c hc joinAlias halias
    have hl : c.link ∈ r.columns.map (·.link) := List.mem_map_of_mem hc
    have ha : c.link.joinAlias = some joinAlias := c.joinAlias_link ▸ halias
    rw [hlinks] at hl
    by_cases hselects : s.selects
    · rw [if_pos hselects] at hl
      exact Stage.declaresJoin_of_mem_selectedLinks hcard hl ha
    · rw [if_neg hselects] at hl
      rcases hshown with hs | hpassed
      · exact absurd hs hselects
      · exact hpassed _ hl joinAlias ha

def nameOnly : Annotator where
  lexicon := {
    catalog := fun id =>
      if id = 2 then some { id, name := "name", displayName := "Name", baseType := .text } else none
    humanizer := id }

def savedJoin : Stage where
  source := .table 1
  joins := [{ joinAlias := "P", stage := .ofTable 2, condition := some (.literal (.int 1)) }]
  fields := [.field ⟨.id 2, { joinAlias := some "P" }⟩]

def overSavedJoin : Stage where
  source := .stage savedJoin
  card := some { cardId := some 7 }

theorem annotate_hides_joins_iff_of_selected :
    ∃ r, nameOnly.annotate (.structural { overSavedJoin with fields := savedJoin.fields }) {} =
        .ok r ∧ r.columns.length = 1 ∧
      ∀ c ∈ r.columns, ∀ joinAlias, c.refAlias? = some joinAlias →
        overSavedJoin.declaresJoin joinAlias := by
  have h : (nameOnly.annotate (.structural { overSavedJoin with fields := savedJoin.fields })
      {}).toOption.map (·.columns.length) = some 1 := by decide +kernel
  obtain ⟨r, hr, hlen⟩ := exists_of_toOption_map_eq_some h
  exact ⟨r, hr, hlen, (annotate_hides_joins_iff rfl hr).mpr (.inl rfl)⟩

/-- Passed on, the field shows the join inside the saved query. -/
theorem annotate_shows_savedJoin :
    ∃ r, nameOnly.annotate (.structural overSavedJoin) {} = .ok r ∧ overSavedJoin.card.isSome ∧
      ∃ c ∈ r.columns, c.refAlias? = some "P" ∧ overSavedJoin.declaresJoin "P" = false := by
  have h : (nameOnly.annotate (.structural overSavedJoin) {}).toOption.map
      (·.columns.map (·.refAlias?)) = some [some "P"] := by decide +kernel
  obtain ⟨r, hr, halias⟩ := exists_of_toOption_map_eq_some h
  have hmem : some "P" ∈ r.columns.map (·.refAlias?) := halias ▸ List.mem_singleton_self _
  obtain ⟨c, hc, hp⟩ := List.mem_map.mp hmem
  exact ⟨r, hr, rfl, c, hc, hp, rfl⟩

end Annotator

end ResultSchema
