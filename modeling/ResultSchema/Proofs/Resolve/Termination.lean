import ResultSchema.Proofs.Resolve.Calls
import ResultSchema.Proofs.Resolve.Reselected
import ResultSchema.Proofs.Stage.Limit
import Mathlib.Data.Prod.Lex
import Mathlib.Order.Filter.AtTopBot.Basic
import Mathlib.Order.Filter.Finite

/-! # Termination of resolution

Every call that a rule makes is smaller than the call that it answers. Between stages the levels of
nesting get fewer. Within a stage, a name that is expanded may lead to a larger clause, but each
name is expanded once at most along a path of calls, so the names that are left get fewer.
-/

namespace ResultSchema

namespace Stage

variable {s t : Stage} {j : Join Stage}

theorem depth_lt_of_source (h : s.sourceStage? = some t) : t.depth < s.depth := by
  obtain ⟨n, hn⟩ := Nat.exists_eq_succ_of_ne_zero s.depth_pos.ne'
  have hle := (depth_le_succ_iff.mp hn.le).1 t h
  omega

theorem depth_lt_of_mem_joins (h : j ∈ s.joins) : j.stage.depth < s.depth := by
  obtain ⟨n, hn⟩ := Nat.exists_eq_succ_of_ne_zero s.depth_pos.ne'
  have hle := (depth_le_succ_iff.mp hn.le).2 j h
  omega

theorem depth_lt_of_mem_joinsInSight (h : j ∈ s.joinsInSight) : j.stage.depth < s.depth := by
  induction s using nested_induction with
  | step s hsource _ =>
    rw [joinsInSight_eq, List.mem_append] at h
    rcases h with h | h
    · exact depth_lt_of_mem_joins h
    · cases ht : s.sourceStage? with
      | none =>
        rw [ht] at h
        cases h
      | some t =>
        rw [ht] at h
        exact (hsource t ht h).trans (depth_lt_of_source ht)

theorem depth_lt_of_join? {joinAlias : String} (h : s.join? joinAlias = some j) :
    j.stage.depth < s.depth :=
  depth_lt_of_mem_joinsInSight (List.mem_of_find?_eq_some h)

end Stage

namespace Call

variable {lexicon : Lexicon} {c d : Call} {s : Stage} {expanding : List String}

theorem mem_made_visible (h : d ∈ (visible s).made lexicon) :
    d = columns s ∨ ∃ t, t.depth < s.depth ∧ d = visible t := by
  rcases List.mem_cons.mp h with h | h
  · exact .inl h
  · obtain ⟨t, ht, rfl⟩ := List.mem_map.mp h
    exact .inr ⟨t, Stage.depth_lt_of_source (Option.mem_toList.mp ht), rfl⟩

theorem mem_made_columns (h : d ∈ (columns s).made lexicon) :
    (∃ clause, d = column s clause) ∨ ∃ index a, d = aggregation s index a := by
  simp only [made, List.mem_append, List.mem_map] at h
  rcases h with (⟨b, -, rfl⟩ | ⟨⟨a, index⟩, -, rfl⟩) | ⟨clause, -, rfl⟩
  · exact .inl ⟨_, rfl⟩
  · exact .inr ⟨index, a, rfl⟩
  · exact .inl ⟨clause, rfl⟩

theorem mem_made_column {clause : Clause} (h : d ∈ (column s clause).made lexicon) :
    (∃ f, d = field s f) ∨ (∃ clause, d = typing s [] clause) ∨
      ∃ index a, d = aggregation s index a := by
  cases clause with
  | field f => exact .inl ⟨f, List.mem_singleton.mp h⟩
  | expression name options =>
    obtain ⟨e, -, rfl⟩ := List.mem_map.mp h
    exact .inr (.inl ⟨e.clause, rfl⟩)
  | aggregation index =>
    obtain ⟨a, -, rfl⟩ := List.mem_map.mp h
    exact .inr (.inr ⟨index, a, rfl⟩)
  | _ => cases h

theorem mem_made_aggregation {index : Nat} {a : Aggregation}
    (h : d ∈ (aggregation s index a).made lexicon) :
    (∃ clause, d = label s clause) ∨ ∃ clause, d = typing s [] clause := by
  obtain ⟨clause, -, hd⟩ := List.mem_flatMap.mp h
  simp only [List.mem_cons, List.not_mem_nil, or_false] at hd
  exact hd.imp (⟨clause, ·⟩) (⟨clause, ·⟩)

theorem mem_made_label {clause : Clause} (h : d ∈ (label s clause).made lexicon) :
    (∃ f, d = field s f) ∨
      ∃ operand ∈ clause.operands, d = label s operand ∨ d = typing s [] operand := by
  cases clause with
  | field f => exact .inl ⟨f, List.mem_singleton.mp h⟩
  | _ =>
    obtain ⟨operand, hoperand, hd⟩ := List.mem_flatMap.mp h
    simp only [List.mem_cons, List.not_mem_nil, or_false] at hd
    exact .inr ⟨operand, hoperand, hd⟩

/-- A typing asks for a field, for the type of an operand, or expands a declared name that is not
being expanded yet. -/
theorem mem_made_typing {clause : Clause} (h : d ∈ (typing s expanding clause).made lexicon) :
    (∃ f, d = field s f) ∨ (∃ operand ∈ clause.operands, d = typing s expanding operand) ∨
      ∃ name e, s.expressions.get? name = some e ∧ name ∉ expanding ∧
        d = typing s (name :: expanding) e.clause := by
  cases clause with
  | field f => exact .inl ⟨f, List.mem_singleton.mp h⟩
  | expression name options =>
    simp only [made] at h
    split at h
    · cases h
    · rename_i hnew
      simp only [List.mem_map, Option.mem_toList] at h
      obtain ⟨e, he, rfl⟩ := h
      exact .inr (.inr ⟨name, e, he, hnew, rfl⟩)
  | _ =>
    obtain ⟨operand, hoperand, rfl⟩ := List.mem_map.mp h
    exact .inr (.inl ⟨operand, hoperand, rfl⟩)

theorem mem_made_field {f : FieldRef} (h : d ∈ (field s f).made lexicon) :
    (∃ id left parent name, d = parents id left parent name) ∨
      ∃ t, t.depth < s.depth ∧ d = visible t := by
  simp only [made] at h
  split at h
  · obtain ⟨g, -, rfl⟩ := List.mem_map.mp h
    exact .inl ⟨_, _, _, _, rfl⟩
  · obtain ⟨j, hj, rfl⟩ := List.mem_map.mp h
    exact .inr ⟨_, Stage.depth_lt_of_join? (Option.mem_toList.mp hj), rfl⟩
  · obtain ⟨t, ht, rfl⟩ := List.mem_map.mp h
    exact .inr ⟨_, Stage.depth_lt_of_source (Option.mem_toList.mp ht), rfl⟩

theorem mem_made_parents {id : Int64} {left : Nat} {parent : Option Int64} {name : String}
    (h : d ∈ (parents id left parent name).made lexicon) :
    ∃ fewer parent name, fewer < left ∧ d = parents id fewer parent name := by
  simp only [made] at h
  split at h
  · obtain ⟨g, -, rfl⟩ := List.mem_map.mp h
    exact ⟨_, _, _, Nat.lt_succ_self _, rfl⟩
  · cases h

section Rank

/-- What gets smaller from call to call: the levels of nesting, then the function by what it calls,
then the names that may still be expanded, then the clause or the parents that are left. -/
noncomputable def rank : Call → ℕ ×ₗ ℕ ×ₗ ℕ ×ₗ ℕ
  | visible s => toLex (s.depth, toLex (6, toLex (0, 0)))
  | columns s => toLex (s.depth, toLex (5, toLex (0, 0)))
  | column s _ => toLex (s.depth, toLex (4, toLex (0, 0)))
  | aggregation s _ _ => toLex (s.depth, toLex (3, toLex (0, 0)))
  | label s c => toLex (s.depth, toLex (2, toLex (0, sizeOf c)))
  | typing s expanding c =>
    toLex (s.depth, toLex (1, toLex ((unexpanded s expanding).length, sizeOf c)))
  | field s _ => toLex (s.depth, toLex (0, toLex (0, 0)))
  | parents _ left _ _ => toLex (0, toLex (0, toLex (0, left)))

theorem rank_label_lt {clause : Clause} (h : d ∈ (label s clause).made lexicon) :
    d.rank < (label s clause).rank := by
  rcases mem_made_label h with ⟨f, rfl⟩ | ⟨operand, hoperand, rfl | rfl⟩
  · simp [rank, Prod.Lex.toLex_lt_toLex]
  · have hlt := Clause.sizeOf_lt_of_mem_operands hoperand
    simp [rank, Prod.Lex.toLex_lt_toLex, hlt]
  · simp [rank, Prod.Lex.toLex_lt_toLex]

theorem rank_typing_lt {clause : Clause} (h : d ∈ (typing s expanding clause).made lexicon) :
    d.rank < (typing s expanding clause).rank := by
  rcases mem_made_typing h with ⟨f, rfl⟩ | ⟨operand, hoperand, rfl⟩ | ⟨name, e, he, hnew, rfl⟩
  · simp [rank, Prod.Lex.toLex_lt_toLex]
  · have hlt := Clause.sizeOf_lt_of_mem_operands hoperand
    simp [rank, Prod.Lex.toLex_lt_toLex, hlt]
  · -- The clause of the name may well be larger than the reference to it.
    have hlength := length_unexpanded_cons (OrderedMap.mem_keys_of_get? he) hnew
    simp [rank, Prod.Lex.toLex_lt_toLex, hlength]

theorem rank_lt_of_mem_made (h : d ∈ c.made lexicon) : d.rank < c.rank := by
  cases c with
  | visible s =>
    rcases mem_made_visible h with rfl | ⟨t, ht, rfl⟩
    · simp [rank, Prod.Lex.toLex_lt_toLex]
    · simp [rank, Prod.Lex.toLex_lt_toLex, ht]
  | columns s =>
    rcases mem_made_columns h with ⟨clause, rfl⟩ | ⟨index, a, rfl⟩
    all_goals simp [rank, Prod.Lex.toLex_lt_toLex]
  | column s clause =>
    rcases mem_made_column h with ⟨f, rfl⟩ | ⟨clause, rfl⟩ | ⟨index, a, rfl⟩
    all_goals simp [rank, Prod.Lex.toLex_lt_toLex]
  | aggregation s index a =>
    rcases mem_made_aggregation h with ⟨clause, rfl⟩ | ⟨clause, rfl⟩
    all_goals simp [rank, Prod.Lex.toLex_lt_toLex]
  | label s clause => exact rank_label_lt h
  | typing s expanding clause => exact rank_typing_lt h
  | field s f =>
    rcases mem_made_field h with ⟨id, left, parent, name, rfl⟩ | ⟨t, ht, rfl⟩
    · simp [rank, Prod.Lex.toLex_lt_toLex, s.depth_pos]
    · simp [rank, Prod.Lex.toLex_lt_toLex, ht]
  | parents id left parent name =>
    obtain ⟨fewer, _, _, hfewer, rfl⟩ := mem_made_parents h
    simp [rank, Prod.Lex.toLex_lt_toLex, hfewer]

end Rank

/-- No call leads to calls without an end. -/
theorem wellFounded_made (lexicon : Lexicon) :
    WellFounded fun d c : Call => d ∈ c.made lexicon :=
  Subrelation.wf rank_lt_of_mem_made (InvImage.wf rank wellFounded_lt)

/-- The calls that resolution starts with. -/
inductive Outer : Call → Prop
  | visible (s : Stage) : Outer (visible s)
  | columns (s : Stage) : Outer (columns s)
  | column (s : Stage) (c : Clause) : Outer (column s c)
  | aggregation (s : Stage) (index : Nat) (a : Aggregation) : Outer (aggregation s index a)
  | typing (s : Stage) (c : Clause) : Outer (typing s [] c)

/-- The names that a call is expanding are declared, and none is among them twice. -/
def Tracked : Call → Prop
  | typing s expanding _ => expanding.Nodup ∧ ∀ name ∈ expanding, name ∈ s.expressions.keys
  | _ => True

theorem tracked_typing_nil (s : Stage) (c : Clause) : (typing s [] c).Tracked :=
  ⟨.nil, fun _ h => nomatch h⟩

theorem Outer.tracked (h : c.Outer) : c.Tracked := by
  cases h with
  | typing s c => exact tracked_typing_nil s c
  | _ => trivial

theorem Tracked.of_mem_made (hc : c.Tracked) (h : d ∈ c.made lexicon) : d.Tracked := by
  cases c with
  | visible s => rcases mem_made_visible h with rfl | ⟨t, -, rfl⟩ <;> trivial
  | columns s => rcases mem_made_columns h with ⟨clause, rfl⟩ | ⟨index, a, rfl⟩ <;> trivial
  | column s clause =>
    rcases mem_made_column h with ⟨f, rfl⟩ | ⟨clause, rfl⟩ | ⟨index, a, rfl⟩
    · trivial
    · exact tracked_typing_nil s clause
    · trivial
  | aggregation s index a =>
    rcases mem_made_aggregation h with ⟨clause, rfl⟩ | ⟨clause, rfl⟩
    · trivial
    · exact tracked_typing_nil s clause
  | label s clause =>
    rcases mem_made_label h with ⟨f, rfl⟩ | ⟨operand, -, rfl | rfl⟩
    · trivial
    · trivial
    · exact tracked_typing_nil s operand
  | typing s expanding clause =>
    rcases mem_made_typing h with ⟨f, rfl⟩ | ⟨operand, -, rfl⟩ | ⟨name, e, he, hnew, rfl⟩
    · trivial
    · exact hc
    · exact ⟨List.nodup_cons.mpr ⟨hnew, hc.1⟩,
        List.forall_mem_cons.mpr ⟨OrderedMap.mem_keys_of_get? he, hc.2⟩⟩
  | field s f =>
    rcases mem_made_field h with ⟨id, left, parent, name, rfl⟩ | ⟨t, -, rfl⟩ <;> trivial
  | parents id left parent name =>
    obtain ⟨_, _, _, -, rfl⟩ := mem_made_parents h
    trivial

theorem Tracked.of_reaches (hc : c.Tracked)
    (h : Relation.ReflTransGen (fun c d => d ∈ c.made lexicon) c d) : d.Tracked := by
  induction h with
  | refl => exact hc
  | tail _ hd ih => exact ih.of_mem_made hd

/-- Computations that may be cut off before they end. -/
abbrev Bounded := ExceptT SchemaError Option

instance : LawfulThrow Bounded := ⟨fun _ _ => rfl⟩

/-- A computation that ends, beside the plain one with the same outcome. -/
def ending : Comparison Bounded (Except SchemaError) where
  Rel V x y := ∃ outcome, x.run = some outcome ∧ Agree V outcome y
  pure h := ⟨_, rfl, .ok h⟩
  throw _ u := ⟨_, rfl, .error _⟩
  bind := by
    rintro α β γ δ V W x y f g ⟨outcome, hx, hv⟩ hf
    rw [ExceptT.run_bind, hx]
    cases hv with
    | ok hab => exact hf _ _ hab
    | error e => exact ⟨.error e, rfl, .error e⟩

theorem ending_eq_iff {α : Type} {x : Bounded α} {y : Except SchemaError α} :
    ending.Rel Eq x y ↔ x.run = some y := by
  constructor
  · rintro ⟨outcome, hx, hv⟩
    rw [hx, hv.eq]
  · intro hx
    exact ⟨y, hx, .refl (fun _ => rfl) y⟩

/-- The answers by the rules when calls may be nested only so deep. -/
def answerWithin (lexicon : Lexicon) : Nat → Answers Bounded
  | 0, _ => ExceptT.mk none
  | depth + 1, c => rule lexicon (answerWithin lexicon depth) c

/-- Every call is answered, as plain resolution answers it, once calls may be nested deep enough. -/
theorem eventually_answerWithin (lexicon : Lexicon) (c : Call) : ∀ᶠ depth in Filter.atTop,
    (answerWithin lexicon depth c).run = some (plain lexicon c) := by
  simp only [← ending_eq_iff]
  induction c using (wellFounded_made lexicon).induction with
  | h c ih =>
    -- The rule makes finitely many calls, so that one depth is enough for all of them.
    have hall : ∀ᶠ depth in Filter.atTop, ∀ d ∈ {d | d ∈ c.made lexicon},
        ending.Rel Eq (answerWithin lexicon depth d) (plain lexicon d) :=
      (Filter.eventually_all_finite (List.finite_toSet _)).mpr ih
    obtain ⟨n, hn⟩ := Filter.eventually_atTop.mp hall
    refine Filter.eventually_atTop.mpr ⟨n + 1, fun depth hdepth => ?_⟩
    cases depth with
    | zero => cases hdepth
    | succ depth =>
      have hrule := rule_alike (hn depth (Nat.le_of_succ_le_succ hdepth))
      rwa [rule_plain] at hrule

/-- Typing fails only with the error of a field reference, so not because of a cycle. -/
theorem typing_failsOnly (clause : Clause) :
    FailsOnly (fun e => ∃ f, (s.scope lexicon).field f = .error e)
      (plain lexicon (typing s expanding clause)) := by
  generalize hc : typing s expanding clause = c
  induction c using (wellFounded_made lexicon).induction generalizing expanding clause with
  | h c ih =>
    subst hc
    rw [← rule_plain]
    refine Clause.typingBy_failsOnly ?_ ?_ fun operand h => ih _ (operand_mem_made_typing h) _ rfl
    · intro f _
      exact FailsOnly.map (fun e he => ⟨f, he⟩) Typing.ofColumn
    · rintro name options rfl
      cases he : s.expressions.get? name with
      | none =>
        rw [Stage.namedTypingBy_of_none he]
        exact .ok _
      | some e =>
        by_cases hm : name ∈ expanding
        · rw [Stage.namedTypingBy_of_mem hm]
          exact .ok _
        · rw [Stage.namedTypingBy_of_new he hm]
          exact (ih _ (named_mem_made_typing he hm) _ rfl).map _

theorem plain_typing_of_mem {name : String} {options : FieldOptions} (h : name ∈ expanding)
    (hunit : options.temporalUnit = none) :
    (typing s expanding (.expression name options)).made lexicon = [] ∧
      plain lexicon (typing s expanding (.expression name options)) =
        .ok { baseType := .wildcard } := by
  refine ⟨if_pos h, ?_⟩
  rw [← rule_plain]
  show typingRule (plain lexicon) s expanding (.expression name options) = _
  rw [typingRule, Clause.typingBy, Clause.typingOver, hunit]
  exact Stage.namedTypingBy_of_mem h

/-- Resolution ends, for every catalog and every stage. Calls do not lead to calls without an end,
and the answers of plain resolution come out once calls may be nested deep enough. On the way no
name is expanded twice, and only declared names are. A name that is met again has an unknown type;
typing never fails for it, since it fails only where a field reference does. -/
theorem resolution_terminates (lexicon : Lexicon) :
    (WellFounded fun d c : Call => d ∈ c.made lexicon) ∧
    (∀ (x y : Answers (Except SchemaError)) (c : Call), (∀ d ∈ c.made lexicon, x d = y d) →
      rule lexicon x c = rule lexicon y c) ∧
    (∀ s c index a, ∃ n, ∀ depth, n ≤ depth →
      (answerWithin lexicon depth (visible s)).run = some (s.visible lexicon) ∧
      (answerWithin lexicon depth (columns s)).run = some (s.columns lexicon) ∧
      (answerWithin lexicon depth (column s c)).run = some ((s.scope lexicon).column c) ∧
      (answerWithin lexicon depth (aggregation s index a)).run =
        some ((s.scope lexicon).aggregation index a) ∧
      (answerWithin lexicon depth (typing s [] c)).run = some ((s.scope lexicon).typing c)) ∧
    (∀ c s expanding clause, Outer c →
      Relation.ReflTransGen (fun c d => d ∈ c.made lexicon) c (typing s expanding clause) →
      expanding.Nodup ∧ ∀ name ∈ expanding, name ∈ s.expressions.keys) ∧
    (∀ s expanding name options, name ∈ expanding → options.temporalUnit = none →
      (typing s expanding (.expression name options)).made lexicon = [] ∧
      plain lexicon (typing s expanding (.expression name options)) =
        .ok { baseType := .wildcard }) ∧
    ∀ (s : Stage) c e, (s.scope lexicon).typing c = .error e →
      ∃ f, (s.scope lexicon).field f = .error e := by
  refine ⟨wellFounded_made lexicon, fun x y c h => ?_, fun s c index a => ?_,
    fun c s expanding clause hc h => hc.tracked.of_reaches h,
    fun s expanding name options h hunit => plain_typing_of_mem h hunit, fun s c => ?_⟩
  · have hagree : Agree Eq (rule lexicon x c) (rule lexicon y c) := rule_alike (R := outcomes)
      fun d hd => by
        rw [h d hd]
        exact .refl (fun _ => rfl) _
    exact hagree.eq
  · have h := eventually_answerWithin lexicon
    rw [← plain_typing c]
    exact Filter.eventually_atTop.mp ((h (visible s)).and ((h (columns s)).and
      ((h (column s c)).and ((h (aggregation s index a)).and (h (typing s [] c))))))
  · rw [← plain_typing c]
    exact typing_failsOnly c

def circular : Stage :=
  ((Stage.ofTable 1).withExpression "a" (.expression "b" {})).withExpression "b" (.expression "a" {})

theorem resolution_terminates_circular :
    (["b", "a"].Nodup ∧ ∀ name ∈ ["b", "a"], name ∈ circular.expressions.keys) ∧
      plain Stage.priceLexicon (typing circular ["b", "a"] (.expression "a" {})) =
        .ok { baseType := .wildcard } ∧
      ∃ n, ∀ depth, n ≤ depth →
        (answerWithin Stage.priceLexicon depth (typing circular [] (.expression "a" {}))).run =
          some (.ok { baseType := .wildcard }) := by
  obtain ⟨-, -, hanswers, hnames, hcycle, -⟩ := resolution_terminates Stage.priceLexicon
  have hfirst : circular.expressions.get? "a" = some { clause := .expression "b" {} } := rfl
  have hsecond : circular.expressions.get? "b" = some { clause := .expression "a" {} } := rfl
  have hreaches : Relation.ReflTransGen (fun c d => d ∈ c.made Stage.priceLexicon)
      (typing circular [] (.expression "a" {})) (typing circular ["b", "a"] (.expression "a" {})) :=
    .tail (.tail .refl (named_mem_made_typing hfirst List.not_mem_nil))
      (named_mem_made_typing hsecond (by decide))
  obtain ⟨n, hn⟩ := hanswers circular (.expression "a" {}) 0 { clause := .call "count" [] }
  have htyping : (circular.scope Stage.priceLexicon).typing (.expression "a" {}) =
      .ok { baseType := .wildcard } := by decide +kernel
  refine ⟨hnames _ _ _ _ (.typing circular (.expression "a" {})) hreaches,
    (hcycle circular ["b", "a"] "a" {} (by decide) rfl).2, n, fun depth hdepth => ?_⟩
  rw [← htyping]
  exact (hn depth hdepth).2.2.2.2

end Call

end ResultSchema
