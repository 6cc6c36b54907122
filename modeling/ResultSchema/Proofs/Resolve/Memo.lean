import ResultSchema.Proofs.Resolve.Survey

/-! # Remembered resolution

What is remembered under a path is what the stage there exposes. Every computation of a
survey keeps it so, whether it succeeds or fails, and gives the answer of plain resolution.
-/

namespace ResultSchema

namespace Remembering

variable {α β : Type}

def run (x : Remembering α) (memo : Memo) : Except SchemaError α × Memo :=
  (StateT.run (ExceptT.run x) memo).run

theorem run_bind (x : Remembering α) (f : α → Remembering β) (memo : Memo) :
    run (x >>= f) memo = match run x memo with
      | (.ok a, memo) => run (f a) memo
      | (.error e, memo) => (.error e, memo) := by
  show StateT.run (ExceptT.run x >>= ExceptT.bindCont f) memo = _
  unfold run
  rcases h : StateT.run (ExceptT.run x) memo with ⟨_ | _, memo'⟩
  all_goals
    rw [StateT.run_bind, h]
    rfl

theorem run_keep (path : StagePath) (compute : Remembering (List Column)) (memo : Memo) :
    run (keep path compute) memo = match memo.find? path with
      | some columns => (.ok columns, memo)
      | none => match run compute memo with
        | (.ok columns, memo) => (.ok columns, memo.remember path columns)
        | (.error e, memo) => (.error e, memo) := by
  have hget : run get memo = (.ok memo, memo) := rfl
  unfold keep
  rw [run_bind, hget]
  dsimp only
  cases memo.find? path with
  | some columns => rfl
  | none =>
    dsimp only
    rw [run_bind]
    rcases run compute memo with ⟨_ | columns, memo'⟩ <;> rfl

end Remembering

namespace Memo

/-- Every entry is what the stage at its path exposes. -/
def Sound (lexicon : Lexicon) (root : Stage) (memo : Memo) : Prop :=
  ∀ path columns, memo.find? path = some columns →
    ∃ s, root.at? path = some s ∧ s.visible lexicon = .ok columns

variable {lexicon : Lexicon} {root : Stage} {memo : Memo}

theorem sound_empty : Sound lexicon root {} := fun _ _ h => nomatch h

theorem Sound.eq (h : memo.Sound lexicon root) {path : StagePath} {s : Stage}
    {columns : List Column} (hs : root.at? path = some s) (hm : memo.find? path = some columns) :
    s.visible lexicon = .ok columns := by
  obtain ⟨t, ht, hc⟩ := h path columns hm
  cases hs.symm.trans ht
  exact hc

theorem Sound.remember (h : memo.Sound lexicon root) {path : StagePath} {s : Stage}
    {columns : List Column} (hs : root.at? path = some s) (hc : s.visible lexicon = .ok columns) :
    (memo.remember path columns).Sound lexicon root := by
  intro other found hfound
  unfold Memo.remember Memo.find? at hfound
  rw [List.lookup_cons] at hfound
  split at hfound
  · rename_i heq
    cases eq_of_beq heq
    cases hfound
    exact ⟨s, hs, hc⟩
  · exact h other found hfound

end Memo

instance : LawfulMonad Remembering :=
  inferInstanceAs (LawfulMonad (ExceptT SchemaError (StateM Memo)))

namespace Remembering

variable {lexicon : Lexicon} {root : Stage}

/-- A remembering computation beside a plain one: the same outcome from every sound memo,
which stays sound. -/
def faithful (lexicon : Lexicon) (root : Stage) : Comparison Remembering (Except SchemaError) where
  Rel V x y := ∀ memo : Memo, memo.Sound lexicon root →
    Agree V (run x memo).1 y ∧ (run x memo).2.Sound lexicon root
  pure h _ hm := ⟨.ok h, hm⟩
  throw _ _ _ hm := ⟨.error _, hm⟩
  bind := by
    intro α β γ δ V W x y f g hx hf memo hm
    obtain ⟨hv, hm'⟩ := hx memo hm
    rw [run_bind]
    rcases hr : run x memo with ⟨r, memo'⟩
    rw [hr] at hv hm'
    cases hv with
    | ok hab => exact hf _ _ hab memo' hm'
    | error e => exact ⟨.error e, hm'⟩

/-- A remembered answer is the one that would be computed. -/
theorem keep_faithful {path : StagePath} {s : Stage} {columns : Remembering (List Column)}
    (hs : root.at? path = some s)
    (h : (faithful lexicon root).Rel (List.Forall₂ LabelRelation.same.Like) columns
      (s.visible lexicon)) :
    (faithful lexicon root).Rel (List.Forall₂ LabelRelation.same.Like) (keep path columns)
      (s.visible lexicon) := by
  intro memo hm
  rw [run_keep]
  cases hfound : memo.find? path with
  | some found =>
    rw [hm.eq hs hfound]
    exact ⟨.ok (List.forall₂_same.mpr fun c _ => .refl c), hm⟩
  | none =>
    obtain ⟨hv, hm'⟩ := h memo hm
    rcases hr : run columns memo with ⟨r, memo'⟩
    rw [hr] at hv hm'
    cases hv' : s.visible lexicon with
    | error e =>
      -- Nothing is remembered here, but what was found before the error is.
      rw [hv'] at hv
      cases hv
      exact ⟨.error e, hm'⟩
    | ok exposed =>
      rw [hv'] at hv
      cases hv with
      | ok hl =>
        cases LabelRelation.Like.list_eq hl
        exact ⟨.ok hl, hm'.remember hs hv'⟩

theorem survey_faithful (lexicon : Lexicon) {s : Stage} {path : StagePath}
    (hs : root.at? path = some s) :
    (survey lexicon s path).scope.Alike (faithful lexicon root) .same (s.scope lexicon) ∧
      (faithful lexicon root).Rel (List.Forall₂ LabelRelation.same.Like)
        (survey lexicon s path).visible (s.visible lexicon) :=
  Stage.survey_alike (.refl lexicon) keep_faithful hs

theorem run_visible_empty (lexicon : Lexicon) (s : Stage) :
    (run (survey lexicon s []).visible {}).1 = s.visible lexicon := by
  have hs : s.at? [] = some s := rfl
  obtain ⟨h, -⟩ := (survey_faithful lexicon hs).2 {} Memo.sound_empty
  generalize (run (survey lexicon s []).visible {}).1 = x at h ⊢
  generalize s.visible lexicon = y at h ⊢
  cases h with
  | ok hl => rw [LabelRelation.Like.list_eq hl]
  | error e => rfl

theorem run_field (lexicon : Lexicon) {s : Stage} {path : StagePath}
    (hs : root.at? path = some s) {memo : Memo} (hm : memo.Sound lexicon root) (f : FieldRef) :
    (run ((survey lexicon s path).scope.field f) memo).1 = (s.scope lexicon).field f := by
  obtain ⟨h, -⟩ := (survey_faithful lexicon hs).1.field f memo hm
  exact (h.imp fun _ _ h => h.eq).eq

end Remembering

inductive Question
  | column (c : Clause)
  | columns
  | visible
  | typing (c : Clause)
  | aggregation (index : Nat) (a : Aggregation)

inductive Answer
  | column (c : Column)
  | columns (columns : List Column)
  | typing (t : Typing)
  deriving DecidableEq

namespace Question

variable {m : Type → Type} [Monad m] [MonadExceptOf SchemaError m]

def ask (survey : Survey m) : Question → m Answer
  | column c => Answer.column <$> survey.scope.column c
  | columns => Answer.columns <$> survey.scope.columns
  | visible => Answer.columns <$> survey.visible
  | typing c => Answer.typing <$> survey.scope.typing c
  | aggregation index a => Answer.column <$> survey.scope.aggregation index a

end Question

structure Inquiry (root : Stage) where
  path : StagePath
  stage : Stage
  stands : root.at? path = some stage
  question : Question

namespace Inquiry

variable {root : Stage} (lexicon : Lexicon)

/-- The answer of plain resolution. -/
def plain (i : Inquiry root) : Except SchemaError Answer :=
  i.question.ask ⟨i.stage.scope lexicon, i.stage.visible lexicon⟩

/-- The answer from a memo, and the memo after it. -/
def remembered (i : Inquiry root) (memo : Memo) : Except SchemaError Answer × Memo :=
  Remembering.run (i.question.ask (Remembering.survey lexicon i.stage i.path)) memo

/-- The answers to inquiries that share a memo, in their order. -/
def session (memo : Memo) : List (Inquiry root) → List (Except SchemaError Answer)
  | [] => []
  | i :: rest =>
    let (answer, memo) := i.remembered lexicon memo
    answer :: session memo rest

variable {lexicon}

/-- One inquiry: the memo stays sound, also after an error. -/
theorem remembered_sound (i : Inquiry root) {memo : Memo} (hm : memo.Sound lexicon root) :
    (i.remembered lexicon memo).1 = i.plain lexicon ∧
      (i.remembered lexicon memo).2.Sound lexicon root := by
  obtain ⟨hscope, hvisible⟩ := Remembering.survey_faithful lexicon i.stands
  have hask : (Remembering.faithful lexicon root).Rel Eq
      (i.question.ask (Remembering.survey lexicon i.stage i.path)) (i.plain lexicon) := by
    unfold plain
    cases i.question with
    | column c => exact Comparison.map (hscope.column c) fun _ _ h => congrArg _ h.eq
    | columns =>
      exact Comparison.map hscope.columns fun _ _ h => congrArg _ (LabelRelation.Like.list_eq h)
    | visible =>
      exact Comparison.map hvisible fun _ _ h => congrArg _ (LabelRelation.Like.list_eq h)
    | typing c => exact Comparison.map (hscope.typing c) fun _ _ h => congrArg _ h
    | aggregation index a =>
      exact Comparison.map (hscope.aggregation index a) fun _ _ h => congrArg _ h.eq
  obtain ⟨ha, hm'⟩ := hask memo hm
  exact ⟨ha.eq, hm'⟩

/-- Inquiries that share a sound memo get the plain answers. -/
theorem session_eq_of_sound {memo : Memo} (hm : memo.Sound lexicon root)
    (inquiries : List (Inquiry root)) :
    session lexicon memo inquiries = inquiries.map (·.plain lexicon) := by
  induction inquiries generalizing memo with
  | nil => rfl
  | cons i rest ih =>
    obtain ⟨ha, hm'⟩ := i.remembered_sound hm
    rw [session, List.map_cons, ← ha, ← ih hm']

/-- Sharing a memo changes no answer: each is the one from an empty memo and the plain one. -/
theorem session_eq (lexicon : Lexicon) (root : Stage) (inquiries : List (Inquiry root)) :
    session lexicon {} inquiries = inquiries.map (fun i => (i.remembered lexicon {}).1) ∧
      session lexicon {} inquiries = inquiries.map (·.plain lexicon) := by
  have hfresh : ∀ i : Inquiry root, (i.remembered lexicon {}).1 = i.plain lexicon :=
    fun i => (i.remembered_sound Memo.sound_empty).1
  have hplain : session lexicon {} inquiries = inquiries.map (·.plain lexicon) :=
    session_eq_of_sound Memo.sound_empty inquiries
  exact ⟨hplain.trans (List.map_congr_left fun i _ => (hfresh i).symm), hplain⟩

end Inquiry

end ResultSchema
