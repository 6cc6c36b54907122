import ResultSchema.Proofs.Resolve.Columns
import ResultSchema.Proofs.Resolve.Selected

/-! # Calls of resolution

The functions of resolution call one another: what a stage exposes needs its columns, a column the
typing of a clause, a typing what another stage exposes. The step that each function takes is here
the rule that answers a call from the answers to the calls that it makes, with no bound on how often
names are expanded. Plain resolution follows the rules.
-/

namespace ResultSchema

/-- A call of one of the functions of resolution. -/
inductive Call
  | visible (s : Stage)
  | columns (s : Stage)
  | column (s : Stage) (c : Clause)
  | aggregation (s : Stage) (index : Nat) (a : Aggregation)
  | label (s : Stage) (c : Clause)
  /-- The typing of a clause while the named expressions in `expanding` are being typed. -/
  | typing (s : Stage) (expanding : List String) (c : Clause)
  | field (s : Stage) (f : FieldRef)
  /-- The name of a field behind those of its parents, of which only so many are followed. -/
  | parents (id : Int64) (left : Nat) (parent : Option Int64) (name : String)

namespace Call

abbrev Result : Call → Type
  | visible _ => List Column
  | columns _ => List Column
  | column _ _ => Column
  | aggregation _ _ _ => Column
  | label _ _ => String
  | typing _ _ _ => Typing
  | field _ _ => Column
  | parents _ _ _ _ => String

abbrev Answers (m : Type → Type) : Type := (c : Call) → m c.Result

section Rules

open MonadExcept (ofExcept)

variable {m : Type → Type} [Monad m] [MonadExceptOf SchemaError m]
variable (lexicon : Lexicon) (answers : Answers m)

def scope (s : Stage) : Scope m where
  lexicon
  stage := s
  source := s.sourceStage?.map fun t => answers (.visible t)
  joins := s.joinsInSight.map fun j => ⟨j, answers (.visible j.stage)⟩

def exposedRule (s : Stage) : m (List Column) :=
  s.exposedBy (answers (.columns s)) (s.sourceStage?.map fun t => answers (.visible t))

def columnsRule (s : Stage) : m (List Column) :=
  s.columnsBy (fun c => answers (.column s c)) (fun index a => answers (.aggregation s index a))

def columnRule (s : Stage) : Clause → m Column :=
  s.columnBy (fun f => answers (.field s f)) (fun c => answers (.typing s [] c))
    (fun index a => answers (.aggregation s index a))

def aggregationRule (s : Stage) (index : Nat) (a : Aggregation) : m Column :=
  a.columnBy (fun c => answers (.label s c)) (fun c => answers (.typing s [] c)) index

def labelRule (s : Stage) : Clause → m String :=
  Clause.labelBy (fun f => Column.longDisplayName <$> answers (.field s f))
    (fun c => answers (.typing s [] c)) (fun c => answers (.label s c))

def typingRule (s : Stage) (expanding : List String) : Clause → m Typing :=
  Clause.typingBy (fun f => Typing.ofColumn <$> answers (.field s f))
    (s.namedTypingBy (fun expanding c => answers (.typing s expanding c)) expanding)
    (fun c => answers (.typing s expanding c))

def targetRule (s : Stage) : Option (ScopedJoin m) → FieldId → m Column :=
  (scope lexicon answers s).targetBy fun id =>
    Lexicon.columnBy (fun id => ofExcept (lexicon.field id))
      (fun f => answers (.parents id Lexicon.maxParents f.parentId f.name)) id

def fieldRule (s : Stage) : FieldRef → m Column :=
  (scope lexicon answers s).fieldBy (targetRule lexicon answers s)

def parentsRule (id : Int64) : Nat → Option Int64 → String → m String
  | 0 => Lexicon.parentedBy (fun id => ofExcept (lexicon.field id)) id none
  | left + 1 => Lexicon.parentedBy (fun id => ofExcept (lexicon.field id)) id
    (some fun parent name => answers (.parents id left parent name))

/-- The answer to a call from the answers to the calls that it makes. -/
def rule : Answers m
  | visible s => exposedRule answers s
  | columns s => columnsRule answers s
  | column s c => columnRule answers s c
  | aggregation s index a => aggregationRule answers s index a
  | label s c => labelRule answers s c
  | typing s expanding c => typingRule answers s expanding c
  | field s f => fieldRule lexicon answers s f
  | parents id left parent name => parentsRule lexicon answers id left parent name

end Rules

section Made

/-- The calls that the rule for a call may make, whether or not an earlier one fails. -/
def made (lexicon : Lexicon) : Call → List Call
  | visible s => columns s :: s.sourceStage?.toList.map visible
  | columns s => s.breakouts.map (column s ·.clause) ++
      s.aggregations.zipIdx.map (fun (a, i) => aggregation s i a) ++ s.fields.map (column s)
  | column s c => match c with
    | .field f => [field s f]
    | .expression name _ => (s.expressions.get? name).toList.map (typing s [] ·.clause)
    | .aggregation index => s.aggregations[index]?.toList.map (aggregation s index)
    | _ => []
  | aggregation s _ a => (a.clause :: a.clause.operands).flatMap fun c => [label s c, typing s [] c]
  | label s c => match c with
    | .field f => [field s f]
    | _ => c.operands.flatMap fun d => [label s d, typing s [] d]
  | typing s expanding c => match c with
    | .field f => [field s f]
    | .expression name _ =>
      if name ∈ expanding then []
      else (s.expressions.get? name).toList.map (typing s (name :: expanding) ·.clause)
    | _ => c.operands.map (typing s expanding)
  | field s f => match f.id, f.options.joinAlias with
    | .id id, _ => (lexicon.catalog id).toList.map fun g =>
        parents id Lexicon.maxParents g.parentId g.name
    | .name _, some joinAlias => (s.join? joinAlias).toList.map (visible ·.stage)
    | .name _, none => s.sourceStage?.toList.map visible
  | parents id left parent name => match left, parent with
    | left + 1, some parent => (lexicon.catalog parent).toList.map fun g =>
        parents id left g.parentId (g.name ++ "." ++ name)
    | _, _ => []

theorem scope_join {m : Type → Type} {lexicon : Lexicon} {x : Answers m} {s : Stage}
    (joinAlias : String) : (scope lexicon x s).join joinAlias =
      match s.join? joinAlias with
      | some join => .ok ⟨join, x (visible join.stage)⟩
      | none => .error (.unresolved (.join joinAlias (s.joinsInSight.map (·.joinAlias)))) := by
  unfold Scope.join scope Stage.join?
  simp only [List.find?_map, List.map_map, Function.comp_def]
  cases s.joinsInSight.find? (·.joinAlias == joinAlias) <;> rfl

theorem operand_mem_made_typing {lexicon : Lexicon} {s : Stage} {expanding : List String}
    {c d : Clause} (h : d ∈ c.operands) :
    typing s expanding d ∈ (typing s expanding c).made lexicon := by
  cases c <;> first
    | exact List.mem_map_of_mem h
    | cases h

theorem named_mem_made_typing {lexicon : Lexicon} {s : Stage} {expanding : List String}
    {name : String} {options : FieldOptions} {e : NamedExpression}
    (he : s.expressions.get? name = some e) (hnew : name ∉ expanding) :
    typing s (name :: expanding) e.clause ∈
      (typing s expanding (.expression name options)).made lexicon := by
  simp [made, hnew, he]

variable {m n : Type → Type} [Monad m] [Monad n] [LawfulMonad m] [LawfulMonad n]
variable [MonadExceptOf SchemaError m] [MonadExceptOf SchemaError n] [LawfulThrow m] [LawfulThrow n]
variable {R : Comparison m n} {lexicon : Lexicon} {x : Answers m} {y : Answers n} {s : Stage}

theorem source_alike
    (h : ∀ t, s.sourceStage? = some t → R.Rel Eq (x (visible t)) (y (visible t))) :
    Option.Rel (R.Rel (List.Forall₂ LabelRelation.same.Like))
      (s.sourceStage?.map fun t => x (visible t)) (s.sourceStage?.map fun t => y (visible t)) := by
  rw [LabelRelation.like_same, List.forall₂_eq_eq_eq]
  cases ht : s.sourceStage? with
  | none => exact .none
  | some t => exact .some (h t ht)

theorem exposedRule_alike (h : ∀ d ∈ (visible s).made lexicon, R.Rel Eq (x d) (y d)) :
    R.Rel Eq (exposedRule x s) (exposedRule y s) := by
  refine Comparison.imp ((Stage.Alike.refl s).exposedBy (D := .same) ?_ ?_)
    fun _ _ => LabelRelation.Like.list_eq
  · rw [LabelRelation.like_same, List.forall₂_eq_eq_eq]
    exact h (columns s) List.mem_cons_self
  · refine source_alike fun t ht => h (visible t) ?_
    simp [made, ht]

theorem columnsRule_alike (h : ∀ d ∈ (columns s).made lexicon, R.Rel Eq (x d) (y d)) :
    R.Rel Eq (columnsRule x s) (columnsRule y s) := by
  have hb : ∀ b ∈ s.breakouts, column s b.clause ∈ (columns s).made lexicon := fun b hb => by
    simp only [made, List.mem_append]
    exact .inl (.inl (List.mem_map_of_mem hb))
  have ha : ∀ p ∈ s.aggregations.zipIdx, aggregation s p.2 p.1 ∈ (columns s).made lexicon :=
    fun p hp => by
      simp only [made, List.mem_append]
      exact .inl (.inr (List.mem_map_of_mem hp))
  have hf : ∀ c ∈ s.fields, column s c ∈ (columns s).made lexicon := fun c hc => by
    simp only [made, List.mem_append]
    exact .inr (List.mem_map_of_mem hc)
  refine Comparison.imp ((Stage.Alike.refl s).columnsBy (D := .same) (fun b hmem => ?_)
    (fun p hmem => ?_) fun c hmem => ?_) fun _ _ => LabelRelation.Like.list_eq
  all_goals rw [LabelRelation.like_same]
  · exact h _ (hb b hmem)
  · exact h _ (ha p hmem)
  · exact h _ (hf c hmem)

theorem columnRule_alike {c : Clause} (h : ∀ d ∈ (column s c).made lexicon, R.Rel Eq (x d) (y d)) :
    R.Rel Eq (columnRule x s c) (columnRule y s c) := by
  refine Comparison.imp ((Stage.Alike.refl s).columnBy (D := .same) ?_ ?_ ?_)
    fun _ _ => LabelRelation.Like.eq
  · rintro f rfl
    rw [LabelRelation.like_same]
    exact h (field s f) List.mem_cons_self
  · rintro name options e rfl he
    have hmade : typing s [] e.clause ∈ (column s (.expression name options)).made lexicon := by
      simp [made, he]
    exact h _ hmade
  · rintro index a rfl ha
    have hmade : aggregation s index a ∈ (column s (.aggregation index)).made lexicon := by
      simp [made, ha]
    rw [LabelRelation.like_same]
    exact h _ hmade

theorem aggregationRule_alike {index : Nat} {a : Aggregation}
    (h : ∀ d ∈ (aggregation s index a).made lexicon, R.Rel Eq (x d) (y d)) :
    R.Rel Eq (aggregationRule x s index a) (aggregationRule y s index a) := by
  have hmade : ∀ c ∈ a.clause :: a.clause.operands, ∀ d ∈ [label s c, typing s [] c],
      d ∈ (aggregation s index a).made lexicon :=
    fun c hc d hd => List.mem_flatMap.mpr ⟨c, hc, hd⟩
  refine Comparison.imp (Aggregation.columnBy_alike (D := .same) index (fun c hc => ?_)
    fun c hc => ?_) fun _ _ => LabelRelation.Like.eq
  · exact h _ (hmade c hc _ List.mem_cons_self)
  · exact h _ (hmade c hc _ (List.mem_cons_of_mem _ List.mem_cons_self))

theorem labelRule_alike {c : Clause} (h : ∀ d ∈ (label s c).made lexicon, R.Rel Eq (x d) (y d)) :
    R.Rel Eq (labelRule x s c) (labelRule y s c) := by
  have hmade : ∀ d ∈ c.operands, ∀ e ∈ [label s d, typing s [] d], e ∈ (label s c).made lexicon := by
    intro d hd e he
    cases c <;> first
      | exact List.mem_flatMap.mpr ⟨d, hd, he⟩
      | cases hd
  refine Clause.labelBy_alike (D := .same) ?_ (fun d hd => ?_) (fun d hd => ?_)
  · rintro f rfl
    exact Comparison.map (h (field s f) List.mem_cons_self) fun _ _ h => congrArg _ h
  · exact h _ (hmade d hd _ List.mem_cons_self)
  · exact h _ (hmade d hd _ (List.mem_cons_of_mem _ List.mem_cons_self))

theorem typingRule_alike {expanding : List String} {c : Clause}
    (h : ∀ d ∈ (typing s expanding c).made lexicon, R.Rel Eq (x d) (y d)) :
    R.Rel Eq (typingRule x s expanding c) (typingRule y s expanding c) := by
  refine Clause.typingBy_alike ?_ ?_ fun d hd => h _ (operand_mem_made_typing hd)
  · rintro f rfl
    exact Comparison.map (h (field s f) List.mem_cons_self) fun _ _ h => congrArg _ h
  · rintro name options rfl
    exact (Stage.Alike.refl s).namedTypingBy fun e he hnew => h _ (named_mem_made_typing he hnew)

theorem lexicon_field_alike (id : Int64) :
    R.Lifted (fun f g => f = g ∧ lexicon.catalog id = some f) (lexicon.field id)
      (lexicon.field id) := by
  unfold Lexicon.field
  cases lexicon.catalog id with
  | none => exact .throw _ _
  | some f => exact .pure ⟨rfl, rfl⟩

/-- The join that a reference goes through, with what two answers say of the joined stage. -/
inductive Joined (x : Answers m) (y : Answers n) (s : Stage) (f : FieldRef) :
    Option (ScopedJoin m) → Option (ScopedJoin n) → Prop
  | none : f.options.joinAlias = none → Joined x y s f none none
  | some {joinAlias : String} {join : Join Stage} : f.options.joinAlias = some joinAlias →
      s.join? joinAlias = some join →
      Joined x y s f (some ⟨join, x (visible join.stage)⟩) (some ⟨join, y (visible join.stage)⟩)

theorem scope_join_alike (joinAlias : String) :
    R.Lifted (fun j k => ∃ join, s.join? joinAlias = some join ∧
        j = ⟨join, x (visible join.stage)⟩ ∧ k = ⟨join, y (visible join.stage)⟩)
      ((scope lexicon x s).join joinAlias) ((scope lexicon y s).join joinAlias) := by
  rw [scope_join, scope_join]
  cases s.join? joinAlias with
  | none => exact .throw _ _
  | some join => exact .pure ⟨join, rfl, rfl, rfl⟩

theorem joinOf_alike (f : FieldRef) : R.Rel (Joined x y s f) ((scope lexicon x s).joinOf f)
    ((scope lexicon y s).joinOf f) := by
  unfold Scope.joinOf
  cases ha : f.options.joinAlias with
  | none => exact R.pure (.none ha)
  | some joinAlias =>
    refine Comparison.map (scope_join_alike joinAlias) ?_
    rintro _ _ ⟨join, hj, rfl, rfl⟩
    exact .some ha hj

theorem named_alike {j : Option (ScopedJoin m)} {k : Option (ScopedJoin n)} (name : String)
    (hj : Option.Rel (fun j k => R.Rel Eq j.columns k.columns) j k)
    (hsource : j = none → ∀ t, s.sourceStage? = some t → R.Rel Eq (x (visible t)) (y (visible t))) :
    R.Rel Eq ((scope lexicon x s).named j name) ((scope lexicon y s).named k name) := by
  refine Comparison.map (Scope.findNamed_alike (a := scope lexicon x s) (b := scope lexicon y s)
    (D := .same) rfl ?_ (fun hnone => ?_) name) fun _ _ hfound => ?_
  · simpa only [LabelRelation.like_same, List.forall₂_eq_eq_eq] using hj
  · exact source_alike (hsource hnone)
  · rw [LabelRelation.like_same] at hfound
    exact congrArg _ (eq_of_optionRel hfound)

theorem targetRule_alike {f : FieldRef} {j : Option (ScopedJoin m)} {k : Option (ScopedJoin n)}
    (h : ∀ d ∈ (field s f).made lexicon, R.Rel Eq (x d) (y d)) (hj : Joined x y s f j k) :
    R.Rel Eq (targetRule lexicon x s j f.id) (targetRule lexicon y s k f.id) := by
  cases hid : f.id with
  | id id =>
    refine R.bind (lexicon_field_alike id) ?_
    rintro g _ ⟨rfl, hg⟩
    have hparents : parents id Lexicon.maxParents g.parentId g.name ∈ (field s f).made lexicon := by
      simp [made, hid, hg]
    refine R.bind (h _ hparents) ?_
    rintro name _ rfl
    exact R.pure rfl
  | name name =>
    refine named_alike name ?_ ?_
    · cases hj with
      | none _ => exact .none
      | @some joinAlias join ha hjoin =>
        have hmade : visible join.stage ∈ (field s f).made lexicon := by
          simp [made, hid, ha, hjoin]
        exact .some (h _ hmade)
    · rintro rfl t ht
      cases hj with
      | none ha =>
        have hmade : visible t ∈ (field s f).made lexicon := by simp [made, hid, ha, ht]
        exact h _ hmade

theorem place_alike (join : Option (Join Stage)) (f : FieldRef) (c : Column) :
    R.Lifted Eq ((scope lexicon x s).place join f c) ((scope lexicon y s).place join f c) := by
  -- What other stages expose is not looked at, so they may be left out.
  have hbare : Scope.Alike R .same (⟨lexicon, s, none, []⟩ : Scope m) ⟨lexicon, s, none, []⟩ :=
    ⟨.refl lexicon, .refl s, .none, Scope.Alike.join_of_forall₂ .nil⟩
  have hjoin : Option.Rel Join.Alike join join := by
    cases join with
    | none => exact .none
    | some join => exact .some (.refl join)
  exact Comparison.imp (hbare.place hjoin (.refl c) f) fun _ _ h => h.eq

theorem fieldRule_alike {f : FieldRef} (h : ∀ d ∈ (field s f).made lexicon, R.Rel Eq (x d) (y d)) :
    R.Rel Eq (fieldRule lexicon x s f) (fieldRule lexicon y s f) := by
  refine R.bind (joinOf_alike f) fun j k hj => R.bind (targetRule_alike h hj) ?_
  rintro c _ rfl
  have hjoin : j.map (·.join) = k.map (·.join) := by
    cases hj <;> rfl
  rw [hjoin]
  exact place_alike _ f _

theorem parentsRule_alike {id : Int64} {left : Nat} {parent : Option Int64} {name : String}
    (h : ∀ d ∈ (parents id left parent name).made lexicon, R.Rel Eq (x d) (y d)) :
    R.Rel Eq (parentsRule lexicon x id left parent name)
      (parentsRule lexicon y id left parent name) := by
  cases parent with
  | none => cases left <;> exact R.pure rfl
  | some parent =>
    cases left with
    | zero => exact R.throw _ _
    | succ left =>
      refine R.bind (lexicon_field_alike parent) ?_
      rintro f _ ⟨rfl, hf⟩
      have hnext : parents id left f.parentId (f.name ++ "." ++ name) ∈
          (parents id (left + 1) (some parent) name).made lexicon := by simp [made, hf]
      exact h _ hnext

/-- The answer to a call depends on the calls that it makes only. -/
theorem rule_alike {c : Call} (h : ∀ d ∈ c.made lexicon, R.Rel Eq (x d) (y d)) :
    R.Rel Eq (rule lexicon x c) (rule lexicon y c) := by
  cases c with
  | visible s => exact exposedRule_alike h
  | columns s => exact columnsRule_alike h
  | column s c => exact columnRule_alike h
  | aggregation s index a => exact aggregationRule_alike h
  | label s c => exact labelRule_alike h
  | typing s expanding c => exact typingRule_alike h
  | field s f => exact fieldRule_alike h
  | parents id left parent name => exact parentsRule_alike h

end Made

section Plain

variable (lexicon : Lexicon)

/-- The declared expressions of a stage that are not being typed yet. -/
def unexpanded (s : Stage) (expanding : List String) : List String :=
  s.expressions.keys.filter (· ∉ expanding)

def plain : Answers (Except SchemaError)
  | visible s => s.visible lexicon
  | columns s => s.columns lexicon
  | column s c => (s.scope lexicon).column c
  | aggregation s index a => (s.scope lexicon).aggregation index a
  | label s c => (s.scope lexicon).label c
  | typing s expanding c => c.typing (s.scope lexicon).fieldTyping
      ((s.scope lexicon).namedTyping (unexpanded s expanding).length expanding)
  | field s f => (s.scope lexicon).field f
  | parents id left parent name => lexicon.parentedName id left parent name

variable {lexicon} {s : Stage}

theorem length_unexpanded_cons {expanding : List String} {name : String}
    (hname : name ∈ s.expressions.keys) (hnew : name ∉ expanding) :
    (unexpanded s expanding).length = (unexpanded s (name :: expanding)).length + 1 := by
  have hmem : name ∈ unexpanded s expanding := List.mem_filter.mpr ⟨hname, by simpa using hnew⟩
  have hrest : unexpanded s (name :: expanding) = (unexpanded s expanding).erase name := by
    have hnodup : (unexpanded s expanding).Nodup := s.expressions.nodup.filter _
    rw [hnodup.erase_eq_filter]
    simp only [unexpanded, List.filter_filter]
    refine List.filter_congr fun other _ => ?_
    rw [Bool.eq_iff_iff]
    simp
  rw [hrest, List.length_erase_of_mem hmem]
  have := List.length_pos_of_mem hmem
  omega

/-- The names that are left suffice: plain resolution expands a name whenever it is new. -/
theorem namedTyping_unexpanded (expanding : List String) (name : String) :
    (s.scope lexicon).namedTyping (unexpanded s expanding).length expanding name =
      s.namedTypingBy (fun expanding c => plain lexicon (typing s expanding c)) expanding name := by
  cases he : s.expressions.get? name with
  | none =>
    rw [Stage.namedTypingBy_of_none he]
    cases (unexpanded s expanding).length with
    | zero => rfl
    | succ left =>
      rw [Scope.namedTyping, Stage.scope_stage, Stage.namedTypingBy_of_none he]
  | some e =>
    by_cases hm : name ∈ expanding
    · rw [Stage.namedTypingBy_of_mem hm]
      cases (unexpanded s expanding).length with
      | zero => rfl
      | succ left => exact Stage.namedTypingBy_of_mem hm
    · rw [length_unexpanded_cons (OrderedMap.mem_keys_of_get? he) hm, Scope.namedTyping,
        Stage.scope_stage, Stage.namedTypingBy_of_new he hm, Stage.namedTypingBy_of_new he hm]
      rfl

theorem scope_plain : scope lexicon (plain lexicon) s = s.scope lexicon :=
  (Stage.scope_eq lexicon s).symm

theorem plain_typing (c : Clause) : plain lexicon (typing s [] c) = (s.scope lexicon).typing c := by
  have hall : (unexpanded s []).length = s.expressions.entries.length := by
    simp [unexpanded, OrderedMap.keys]
  unfold plain Scope.typing
  dsimp only
  rw [hall, Stage.scope_stage]

theorem exposedRule_plain : exposedRule (plain lexicon) s = s.visible lexicon := by
  rw [Stage.visible_eq, Scope.exposed, Stage.scope_stage, Stage.scope_source]
  rfl

theorem columnsRule_plain : columnsRule (plain lexicon) s = s.columns lexicon := by
  rw [Stage.columns, Scope.columns, Stage.scope_stage]
  rfl

theorem columnRule_plain (c : Clause) :
    columnRule (plain lexicon) s c = (s.scope lexicon).column c := by
  rw [columnRule, Scope.column, Stage.scope_stage, funext plain_typing]
  rfl

theorem aggregationRule_plain (index : Nat) (a : Aggregation) :
    aggregationRule (plain lexicon) s index a = (s.scope lexicon).aggregation index a := by
  rw [aggregationRule, funext plain_typing]
  rfl

theorem labelRule_plain (c : Clause) :
    labelRule (plain lexicon) s c = (s.scope lexicon).label c := by
  rw [labelRule, funext plain_typing]
  exact (Clause.label_eq _ _ c).symm

theorem typingRule_plain (expanding : List String) (c : Clause) :
    typingRule (plain lexicon) s expanding c = plain lexicon (typing s expanding c) := by
  rw [typingRule, ← funext (namedTyping_unexpanded expanding)]
  exact (Clause.typing_eq _ _ c).symm

theorem targetRule_plain : targetRule lexicon (plain lexicon) s = (s.scope lexicon).target := by
  rw [targetRule, Scope.target, scope_plain, Stage.scope_lexicon]
  refine congrArg _ (funext fun id => ?_)
  simp only [ofExcept_self]
  rfl

theorem fieldRule_plain (f : FieldRef) :
    fieldRule lexicon (plain lexicon) s f = (s.scope lexicon).field f := by
  rw [fieldRule, scope_plain, targetRule_plain]
  rfl

theorem parentsRule_plain (id : Int64) (left : Nat) :
    parentsRule lexicon (plain lexicon) id left = lexicon.parentedName id left := by
  cases left with
  | zero => simp only [parentsRule, Lexicon.parentedName, ofExcept_self]
  | succ left =>
    simp only [parentsRule, Lexicon.parentedName, ofExcept_self]
    rfl

/-- Plain resolution answers each call as the rule for it says. -/
theorem rule_plain (c : Call) : rule lexicon (plain lexicon) c = plain lexicon c := by
  cases c with
  | visible s => exact exposedRule_plain
  | columns s => exact columnsRule_plain
  | column s c => exact columnRule_plain c
  | aggregation s index a => exact aggregationRule_plain index a
  | label s c => exact labelRule_plain c
  | typing s expanding c => exact typingRule_plain expanding c
  | field s f => exact fieldRule_plain f
  | parents id left parent name => exact congrFun₂ (parentsRule_plain id left) parent name

end Plain

end Call

end ResultSchema
