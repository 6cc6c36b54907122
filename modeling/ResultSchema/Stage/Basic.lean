import ResultSchema.Clause.Aggregation
import ResultSchema.Column.Basic

/-! # Stages

One level of a structured query: where the rows come from, the joined stages, and what is
selected. Stages nest through sources and joins; functions on them are folds.
-/

namespace ResultSchema

inductive Source (σ : Type)
  | none
  | table (id : Int64)
  | native (query : Json)
  | stage (s : σ)

/-- A stage joined under an alias. A join with a foreign key came from following that key. -/
structure Join (σ : Type) where
  joinAlias : String
  stage : σ
  condition : Option Clause := none
  fkFieldId : Option Int64 := none
  ident : Option String := none

structure SourceCard where
  cardId : Option Int64 := none
  entityId : Option String := none
  model : Bool := false
  deriving DecidableEq, Repr

structure Breakout where
  clause : Clause
  ident : Option String := none

structure NamedExpression where
  clause : Clause
  ident : Option String := none

structure Stage where
  source : Source Stage := .none
  /-- The declared columns of the source. -/
  metadata : List Column := []
  card : Option SourceCard := none
  joins : List (Join Stage) := []
  breakouts : List Breakout := []
  aggregations : List Aggregation := []
  expressions : OrderedMap NamedExpression := .empty
  fields : List Clause := []

/-- A query is analysed stage by stage or, when native, known by its results only. -/
inductive Query
  | structural (s : Stage)
  | native (query : Json)

def Join.isImplicit {σ : Type} (j : Join σ) : Bool := j.fkFieldId.isSome

namespace Source

variable {σ τ : Type}

def stage? : Source σ → Option σ
  | stage s => some s
  | _ => Option.none

def isNative : Source σ → Bool
  | native _ => true
  | _ => false

end Source

namespace Stage

variable {α : Type}

mutual

/-- Computes bottom-up, from the results for the source stage and for the joined stages. -/
def fold (f : Stage → Option α → List α → α) : Stage → α
  | ⟨source, metadata, card, joins, breakouts, aggregations, expressions, fields⟩ =>
    f ⟨source, metadata, card, joins, breakouts, aggregations, expressions, fields⟩
      (foldSource f source) (foldJoins f joins)
termination_by structural s => s

def foldSource (f : Stage → Option α → List α → α) : Source Stage → Option α
  | .stage s => some (fold f s)
  | .none => none
  | .table _ => none
  | .native _ => none
termination_by structural s => s

def foldJoins (f : Stage → Option α → List α → α) : List (Join Stage) → List α
  | [] => []
  | j :: rest => foldJoin f j :: foldJoins f rest
termination_by structural js => js

def foldJoin (f : Stage → Option α → List α → α) : Join Stage → α
  | ⟨_, s, _, _, _⟩ => fold f s
termination_by structural j => j

end

/-- The stage that the rows come from, if they come from one. -/
def sourceStage? (s : Stage) : Option Stage := s.source.stage?

theorem foldJoins_eq_map (f : Stage → Option α → List α → α) (js : List (Join Stage)) :
    foldJoins f js = js.map fun j => fold f j.stage := by
  induction js with
  | nil => rfl
  | cons j rest ih => cases j; simp only [foldJoins, foldJoin, ih, List.map_cons]

theorem fold_eq (f : Stage → Option α → List α → α) (s : Stage) :
    fold f s = f s (s.sourceStage?.map (fold f)) (s.joins.map fun j => fold f j.stage) := by
  obtain ⟨source, _, _, joins, _, _, _, _⟩ := s
  rw [fold, foldJoins_eq_map]
  cases source <;> rfl

/-- What follows for a stage from its source stage and its joined stages holds of all stages. -/
@[elab_as_elim]
theorem nested_induction {P : Stage → Prop} (s : Stage)
    (step : ∀ s : Stage, (∀ t, s.sourceStage? = some t → P t) → (∀ j ∈ s.joins, P j.stage) → P s) :
    P s :=
  step s (fun t _ => nested_induction t step) (fun j _ => nested_induction j.stage step)
termination_by sizeOf s
decreasing_by
  · obtain ⟨source, _, _, _, _, _, _, _⟩ := s
    cases source <;> simp_all [sourceStage?, Source.stage?]
    omega
  · rename_i hj
    have := List.sizeOf_lt_of_mem hj
    obtain ⟨_, _, _, joins, _, _, _, _⟩ := s
    cases j
    simp_all
    omega

/-- Computes along the chain of source stages, from the result for the source stage. -/
def foldChain (f : Stage → Option α → α) : Stage → α
  | ⟨.stage t, metadata, card, joins, breakouts, aggregations, expressions, fields⟩ =>
    f ⟨.stage t, metadata, card, joins, breakouts, aggregations, expressions, fields⟩
      (some (foldChain f t))
  | s => f s none
termination_by structural s => s

theorem foldChain_eq (f : Stage → Option α → α) (s : Stage) :
    foldChain f s = f s (s.sourceStage?.map (foldChain f)) := by
  obtain ⟨source, _, _, _, _, _, _, _⟩ := s
  cases source <;> rfl

theorem foldChain_rel {β : Type} {f : Stage → Option α → α} {g : Stage → Option β → β}
    {V : α → β → Prop} (h : ∀ s x y, Option.Rel V x y → V (f s x) (g s y)) (s : Stage) :
    V (foldChain f s) (foldChain g s) := by
  induction s using nested_induction with
  | step s hsource _ =>
    rw [foldChain_eq, foldChain_eq]
    refine h s _ _ ?_
    cases ht : s.sourceStage? with
    | none => exact .none
    | some t => exact .some (hsource t ht)

def chain : Stage → List Stage := foldChain fun s rest => s :: rest.getD []

/-- Levels of nesting through source stages and joined stages, counting the stage itself. -/
def depth : Stage → Nat := fold fun _ source joined => 1 + max (source.getD 0) (joined.foldl max 0)

def sourceIsNative (s : Stage) : Bool := s.source.isNative

def isModel (s : Stage) : Bool := (s.card.map (·.model)).getD false

def declaresJoin (s : Stage) (joinAlias : String) : Bool := s.joins.any (·.joinAlias == joinAlias)

/-- Whether the stage names columns of its own. -/
def selects (s : Stage) : Bool :=
  !(s.breakouts.isEmpty && s.aggregations.isEmpty && s.fields.isEmpty)

end Stage

/-- The way from a stage to one that it reads or joins. -/
inductive StageStep
  | source
  | join (i : Nat)
  deriving DecidableEq, Repr

abbrev StagePath := List StageStep

def Stage.at? (s : Stage) : StagePath → Option Stage
  | [] => some s
  | .source :: rest => s.sourceStage?.bind (·.at? rest)
  | .join i :: rest => s.joins[i]?.bind (·.stage.at? rest)

namespace Query

/-- The limit of nesting where none is given. -/
def standardMaxDepth : Nat := 32

def stage? : Query → Option Stage
  | structural s => some s
  | native _ => none

def isNative : Query → Bool
  | structural _ => false
  | native _ => true

end Query

end ResultSchema
