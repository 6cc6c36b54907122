import ResultSchema.Stage.Basic

/-! # Chains and trees of stages

Columns are passed along the chain of source stages. What comes out of it is decided by the
first stage that selects columns, or else by what the last stage reads and by what the stages
declare. What is asked of all stages of a tree is asked of a stage, of the one that it reads and
of those that it joins.
-/

namespace ResultSchema

def Source.isOutside {σ : Type} : Source σ → Bool
  | table _ => true
  | native _ => true
  | stage _ => false
  | none => false

inductive Source.Rel {σ τ : Type} (S : σ → τ → Prop) : Source σ → Source τ → Prop
  | none : Rel S none none
  | table (id : Int64) : Rel S (table id) (table id)
  | native (query : Json) : Rel S (native query) (native query)
  | stage {s : σ} {t : τ} : S s t → Rel S (stage s) (stage t)

theorem Source.Rel.stage? {σ τ : Type} {S : σ → τ → Prop} {x : Source σ} {y : Source τ}
    (h : Rel S x y) : Option.Rel S x.stage? y.stage? := by
  cases h with
  | stage h => exact .some h
  | none | table | native => exact .none

theorem Source.Rel.imp {σ τ : Type} {S T : σ → τ → Prop} {x : Source σ} {y : Source τ}
    (h : Rel S x y) (hST : ∀ s ∈ x.stage?, ∀ t, S s t → T s t) : Rel T x y := by
  cases h with
  | none => exact .none
  | table id => exact .table id
  | native query => exact .native query
  | stage h => exact .stage (hST _ rfl _ h)

theorem Source.Rel.of_eq {σ : Type} (x : Source σ) : Rel Eq x x := by
  cases x with
  | none => exact .none
  | table id => exact .table id
  | native query => exact .native query
  | stage s => exact .stage rfl

/-- Structural queries of related stages, or the same native query. -/
inductive Query.Rel (S : Stage → Stage → Prop) : Query → Query → Prop
  | structural {s t : Stage} : S s t → Rel S (structural s) (structural t)
  | native (query : Json) : Rel S (native query) (native query)

theorem Query.Rel.of_eq (q : Query) : q.Rel Eq q := by
  cases q with
  | structural s => exact .structural rfl
  | native query => exact .native query

namespace Stage

variable {s t : Stage}

theorem sourceStage?_eq_some_iff : s.sourceStage? = some t ↔ s.source = .stage t := by
  unfold sourceStage?
  cases s.source <;> simp [Source.stage?]

/-- The stage satisfies `P`, and so do the stages that it reads and joins, at any depth. -/
def Throughout (P : Stage → Prop) (s : Stage) : Prop := ∀ path t, s.at? path = some t → P t

section Throughout

variable {P : Stage → Prop}

theorem Throughout.own (h : s.Throughout P) : P s := h [] s rfl

theorem Throughout.source (h : s.Throughout P) (ht : s.sourceStage? = some t) : t.Throughout P :=
  fun path u hu => h (.source :: path) u (by rw [at?, ht]; exact hu)

theorem Throughout.join (h : s.Throughout P) {j : Join Stage} (hj : j ∈ s.joins) :
    j.stage.Throughout P := by
  intro path u hu
  obtain ⟨i, hi⟩ := List.mem_iff_getElem?.mp hj
  exact h (.join i :: path) u (by rw [at?, hi]; exact hu)

theorem throughout_iff : s.Throughout P ↔ P s ∧
    (∀ t, s.sourceStage? = some t → t.Throughout P) ∧ ∀ j ∈ s.joins, j.stage.Throughout P := by
  refine ⟨fun h => ⟨h.own, fun t => h.source, fun j => h.join⟩, ?_⟩
  rintro ⟨hown, hsource, hjoins⟩ path u hu
  cases path with
  | nil =>
    cases hu
    exact hown
  | cons step path =>
    cases step with
    | source =>
      obtain ⟨t, ht, hu⟩ := Option.bind_eq_some_iff.mp hu
      exact hsource t ht path u hu
    | join i =>
      obtain ⟨j, hj, hu⟩ := Option.bind_eq_some_iff.mp hu
      exact hjoins j (List.mem_of_getElem? hj) path u hu

end Throughout

theorem chain_eq (s : Stage) : s.chain = s :: (s.sourceStage?.map chain).getD [] :=
  foldChain_eq _ s

theorem chain_of_source (h : s.sourceStage? = some t) : s.chain = s :: t.chain := by
  rw [chain_eq, h]
  rfl

theorem chain_of_end (h : s.sourceStage? = none) : s.chain = [s] := by
  rw [chain_eq, h]
  rfl

def selectedCount (s : Stage) : Nat :=
  s.breakouts.length + s.aggregations.length + s.fields.length

theorem selectedCount_ne_zero (h : s.selects) : s.selectedCount ≠ 0 := by
  simp only [selects, Bool.not_eq_true', Bool.and_eq_false_iff, List.isEmpty_eq_false_iff,
    ← List.length_pos_iff] at h
  unfold selectedCount
  omega

/-- The first stage on the chain that selects columns. -/
def selecting? (s : Stage) : Option Stage := s.chain.find? (·.selects)

theorem selecting?_of_selects (h : s.selects) : s.selecting? = some s := by
  rw [selecting?, chain_eq]
  exact List.find?_cons_of_pos h

theorem selecting?_of_source (hs : s.selects = false) (h : s.sourceStage? = some t) :
    s.selecting? = t.selecting? := by
  rw [selecting?, chain_of_source h]
  exact List.find?_cons_of_neg (by simp [hs])

theorem selecting?_of_end (hs : s.selects = false) (h : s.sourceStage? = none) :
    s.selecting? = none := by
  rw [selecting?, chain_of_end h, List.find?_cons_of_neg (by simp [hs])]
  rfl

theorem selects_of_selecting? (h : s.selecting? = some t) : t.selects := List.find?_some h

/-- The stages that columns pass on their way out: those of the chain down to the first that
selects columns, or all of them if none does. -/
def route (s : Stage) : List Stage := s.chain.takeWhile (!·.selects) ++ s.selecting?.toList

theorem route_of_selects (h : s.selects) : s.route = [s] := by
  rw [route, selecting?_of_selects h, chain_eq, List.takeWhile_cons_of_neg (by simp [h])]
  rfl

theorem route_of_source (hs : s.selects = false) (h : s.sourceStage? = some t) :
    s.route = s :: t.route := by
  rw [route, selecting?_of_source hs h, chain_of_source h,
    List.takeWhile_cons_of_pos (by simp [hs])]
  rfl

theorem route_of_end (hs : s.selects = false) (h : s.sourceStage? = none) : s.route = [s] := by
  rw [route, selecting?_of_end hs h, chain_of_end h, List.takeWhile_cons_of_pos (by simp [hs])]
  rfl

theorem mem_route (s : Stage) : s ∈ s.route := by
  cases hs : s.selects with
  | true => exact route_of_selects hs ▸ List.mem_cons_self
  | false => cases h : s.sourceStage? with
    | none => exact route_of_end hs h ▸ List.mem_cons_self
    | some t => exact route_of_source hs h ▸ List.mem_cons_self

/-- Whether the last stage of the chain reads from outside the query. -/
def endsOutside (s : Stage) : Bool := s.chain.getLast?.any (·.source.isOutside)

theorem endsOutside_of_source (h : s.sourceStage? = some t) : s.endsOutside = t.endsOutside := by
  rw [endsOutside, endsOutside, chain_of_source h, chain_eq t]
  rfl

theorem endsOutside_of_end (h : s.sourceStage? = none) : s.endsOutside = s.source.isOutside := by
  rw [endsOutside, chain_of_end h]
  rfl

/-- The number of columns that are declared by the innermost stage on the chain that declares
any. -/
def declaredCount (s : Stage) : Nat :=
  ((s.chain.reverse.find? fun t => !t.metadata.isEmpty).map (·.metadata.length)).getD 0

theorem declaredCount_of_end (h : s.sourceStage? = none) :
    s.declaredCount = s.metadata.length := by
  rw [declaredCount, chain_of_end h]
  cases hm : s.metadata <;> simp [hm]

/-- A stage is asked for what it declares when no stage inside it declares any columns. -/
theorem declaredCount_of_source (h : s.sourceStage? = some t) : s.declaredCount =
    if t.declaredCount = 0 then s.metadata.length else t.declaredCount := by
  unfold declaredCount
  rw [chain_of_source h, List.reverse_cons, List.find?_append]
  cases ht : t.chain.reverse.find? fun t => !t.metadata.isEmpty with
  | none => cases hm : s.metadata <;> simp [hm]
  | some u =>
    have hu : u.metadata ≠ [] := by simpa using List.find?_some ht
    simp [hu]

/-- Whether the columns of the chain are those that the driver reports. -/
def passesOutside (s : Stage) : Bool := s.selecting?.isNone && s.endsOutside

theorem passesOutside_of_selects (h : s.selects) : s.passesOutside = false := by
  rw [passesOutside, selecting?_of_selects h]
  rfl

theorem passesOutside_of_source (hs : s.selects = false) (h : s.sourceStage? = some t) :
    s.passesOutside = t.passesOutside := by
  rw [passesOutside, passesOutside, selecting?_of_source hs h, endsOutside_of_source h]

theorem passesOutside_of_end (hs : s.selects = false) (h : s.sourceStage? = none) :
    s.passesOutside = s.source.isOutside := by
  rw [passesOutside, selecting?_of_end hs h, endsOutside_of_end h]
  rfl

end Stage

def Query.passesOutside : Query → Bool
  | structural s => s.passesOutside
  | native _ => true

end ResultSchema
