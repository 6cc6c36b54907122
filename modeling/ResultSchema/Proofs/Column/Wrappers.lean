import ResultSchema.Column.Ident

/-! # Wrapped idents

Joins and models wrap an ident one after the other. Each wrapper puts its front before the ident,
but a model leaves an ident alone that begins with its front. The wrappers therefore come off again,
from the outermost inwards, exactly when no model was met with an ident of its own.
-/

namespace ResultSchema.Ident

theorem dropFront?_eq_some_iff {front text rest : List Char} :
    dropFront? front text = some rest ↔ text = front ++ rest := by
  constructor
  · intro h
    induction front generalizing text with
    | nil => simpa [dropFront?] using h
    | cons c front ih =>
      cases text with
      | nil => cases h
      | cons d text =>
        rw [dropFront?] at h
        split at h
        next hcd => rw [hcd, ih h, List.cons_append]
        next => cases h
  · rintro rfl
    exact dropFront?_append front rest

theorem strip?_eq_some_iff {front text rest : String} :
    strip? front text = some rest ↔ text = front ++ rest := by
  constructor
  · intro h
    obtain ⟨chars, hchars, rfl⟩ := Option.map_eq_some_iff.mp h
    rw [← String.toList_inj, String.toList_append, String.toList_ofList]
    exact dropFront?_eq_some_iff.mp hchars
  · rintro rfl
    exact strip?_append front rest

theorem isSome_strip?_iff {front text : String} :
    (strip? front text).isSome ↔ front.toList <+: text.toList := by
  rw [Option.isSome_iff_exists]
  constructor
  · rintro ⟨rest, h⟩
    rw [strip?_eq_some_iff.mp h, String.toList_append]
    exact List.prefix_append _ _
  · rintro ⟨rest, h⟩
    refine ⟨String.ofList rest, strip?_eq_some_iff.mpr ?_⟩
    rw [← String.toList_inj, String.toList_append, String.toList_ofList, h]

/-- What wraps an ident: an explicit join, an implicit one through a foreign key, or a model. -/
inductive Wrapper
  | join (joinIdent : String)
  | implicit (fkIdent : String)
  | model (entityId : String)

namespace Wrapper

variable {w : Wrapper} {ws inner outer : List Wrapper} {ident text rest : String}

def front : Wrapper → String
  | join joinIdent => joinFront joinIdent
  | implicit fkIdent => implicitFront fkIdent
  | model entityId => modelFront entityId

def wrap : Wrapper → String → String
  | join joinIdent => joined joinIdent
  | implicit fkIdent => implicitlyJoined fkIdent
  | model entityId => modelScoped entityId

def strip? : Wrapper → String → Option String
  | join joinIdent => stripJoin? joinIdent
  | implicit fkIdent => stripImplicit? fkIdent
  | model entityId => stripModel? entityId

/-- The wrapper is not a model's, or the ident does not begin with the front of that model. -/
def Applies : Wrapper → String → Prop
  | model entityId, ident => ¬(modelFront entityId).toList <+: ident.toList
  | _, _ => True

instance (w : Wrapper) (ident : String) : Decidable (w.Applies ident) :=
  match w with
  | join _ => .isTrue trivial
  | implicit _ => .isTrue trivial
  | model entityId => inferInstanceAs (Decidable ¬(modelFront entityId).toList <+: ident.toList)

theorem length_front_pos (w : Wrapper) : 0 < w.front.length := by
  have hlast : ∀ {text last : String}, 0 < last.length → 0 < (text ++ last).length :=
    fun h => Nat.lt_of_lt_of_eq (Nat.add_pos_right _ h) (String.length_append ..).symm
  cases w <;> exact hlast (by decide)

theorem strip?_eq_some_iff : w.strip? text = some rest ↔ text = w.front ++ rest := by
  cases w <;> exact Ident.strip?_eq_some_iff

theorem wrap_of_applies (h : w.Applies ident) : w.wrap ident = w.front ++ ident := by
  cases w with
  | join joinIdent => rfl
  | implicit fkIdent => rfl
  | model entityId => exact if_neg fun hscoped => h (isSome_strip?_iff.mp hscoped)

theorem wrap_of_not_applies (h : ¬w.Applies ident) : w.wrap ident = ident := by
  cases w with
  | join joinIdent => exact absurd trivial h
  | implicit fkIdent => exact absurd trivial h
  | model entityId => exact if_pos (isSome_strip?_iff.mpr (Classical.not_not.mp h))

/-- The wrappers put around an ident one after the other, the first one innermost. -/
def wrapAll (ws : List Wrapper) (ident : String) : String :=
  ws.foldl (fun ident w => w.wrap ident) ident

/-- The wrappers taken off one after the other, the last one first. -/
def stripAll? (ws : List Wrapper) (ident : String) : Option String := ws.foldrM strip? ident

/-- Every wrapper applies to what the wrappers before it made of the ident. -/
def AllApply : List Wrapper → String → Prop
  | [], _ => True
  | w :: ws, ident => w.Applies ident ∧ AllApply ws (w.wrap ident)

instance decidableAllApply : ∀ (ws : List Wrapper) (ident : String), Decidable (AllApply ws ident)
  | [], _ => .isTrue trivial
  | w :: ws, ident =>
    have := decidableAllApply ws (w.wrap ident)
    inferInstanceAs (Decidable (_ ∧ _))

/-- The fronts of the wrappers, the outermost first. -/
def fronts : List Wrapper → String
  | [] => ""
  | w :: ws => fronts ws ++ w.front

theorem stripAll?_eq_some_iff : stripAll? ws text = some rest ↔ text = fronts ws ++ rest := by
  induction ws generalizing rest with
  | nil =>
    rw [fronts, String.empty_append]
    exact Option.some_inj
  | cons w ws ih =>
    rw [stripAll?, List.foldrM_cons, Option.bind_eq_bind, Option.bind_eq_some_iff, fronts,
      String.append_assoc]
    constructor
    · rintro ⟨mid, hmid, hrest⟩
      rw [ih.mp hmid, strip?_eq_some_iff.mp hrest]
    · intro h
      exact ⟨w.front ++ rest, ih.mpr h, strip?_eq_some_iff.mpr rfl⟩

/-- Wrapping puts all fronts before the ident, or something shorter where one is missing. -/
theorem wrapAll_eq_or_lt (ws : List Wrapper) (ident : String) :
    (AllApply ws ident ∧ wrapAll ws ident = fronts ws ++ ident) ∨
      (¬AllApply ws ident ∧ (wrapAll ws ident).length < (fronts ws ++ ident).length) := by
  induction ws generalizing ident with
  | nil => exact .inl ⟨trivial, String.empty_append.symm⟩
  | cons w ws ih =>
    have hstep : wrapAll (w :: ws) ident = wrapAll ws (w.wrap ident) := rfl
    have ih := ih (w.wrap ident)
    rw [hstep, fronts, String.append_assoc]
    by_cases hw : w.Applies ident
    · rw [wrap_of_applies hw] at ih ⊢
      rcases ih with ⟨hall, heq⟩ | ⟨hall, hlt⟩
      · exact .inl ⟨⟨hw, by rwa [wrap_of_applies hw]⟩, heq⟩
      · exact .inr ⟨fun h => hall (wrap_of_applies hw ▸ h.2), hlt⟩
    · have hfront := w.length_front_pos
      rw [wrap_of_not_applies hw] at ih ⊢
      refine .inr ⟨fun h => hw h.1, ?_⟩
      rcases ih with ⟨-, heq⟩ | ⟨-, hlt⟩
      · rw [heq]
        simp only [String.length_append]
        omega
      · simp only [String.length_append] at hlt ⊢
        omega

theorem stripAll?_wrapAll_iff : stripAll? ws (wrapAll ws ident) = some ident ↔ AllApply ws ident := by
  rw [stripAll?_eq_some_iff]
  rcases wrapAll_eq_or_lt ws ident with ⟨hall, heq⟩ | ⟨hall, hlt⟩
  · exact iff_of_true heq hall
  · exact iff_of_false (fun heq => by rw [heq] at hlt; exact Nat.lt_irrefl _ hlt) hall

-- A model that meets an ident of its own adds no front, and then taking it off takes too much.
example : stripAll? [model "e"] (wrapAll [model "e"] "model[e]__C") = some "C" := by decide

theorem allApply_append : AllApply (inner ++ outer) ident ↔
    AllApply inner ident ∧ AllApply outer (wrapAll inner ident) := by
  induction inner generalizing ident with
  | nil => exact ⟨fun h => ⟨trivial, h⟩, And.right⟩
  | cons w inner ih =>
    rw [List.cons_append, AllApply, AllApply, ih, and_assoc]
    rfl

theorem wrapAll_append : wrapAll (inner ++ outer) ident = wrapAll outer (wrapAll inner ident) :=
  List.foldl_append

/-- Where no model meets an ident that begins with its front, all wrappers come off again, and after
each step there is the ident from before the wrapper was put around it. A model that wraps an ident
twice wraps it once. -/
theorem stripAll?_wrapAll (wrappers : List Wrapper) (ident : String) :
    (AllApply wrappers ident →
      (∀ inner outer, wrappers = inner ++ outer →
        stripAll? outer (wrapAll wrappers ident) = some (wrapAll inner ident)) ∧
      stripAll? wrappers (wrapAll wrappers ident) = some ident) ∧
    ∀ entityId, modelScoped entityId (modelScoped entityId ident) = modelScoped entityId ident := by
  refine ⟨fun h => ⟨?_, stripAll?_wrapAll_iff.mpr h⟩, fun entityId => ?_⟩
  · rintro inner outer rfl
    rw [wrapAll_append]
    exact stripAll?_wrapAll_iff.mpr (allApply_append.mp h).2
  · exact if_pos (isSome_stripModel?_modelScoped entityId ident)

def nestedWrappers : List Wrapper := [model "e", join "J__->__", implicit "model[e]__", model "e"]

theorem stripAll?_wrapAll_nested :
    wrapAll nestedWrappers "join__C" =
      "model[e]__implicit_via__model[e]____->__join__J__->____model[e]__join__C" ∧
    stripAll? nestedWrappers
      "model[e]__implicit_via__model[e]____->__join__J__->____model[e]__join__C" = some "join__C" ∧
    modelScoped "e" (modelScoped "e" "join__C") = "model[e]__join__C" := by
  have hwrapped : wrapAll nestedWrappers "join__C" =
      "model[e]__implicit_via__model[e]____->__join__J__->____model[e]__join__C" := by decide +kernel
  obtain ⟨hstrips, hmodel⟩ := stripAll?_wrapAll nestedWrappers "join__C"
  exact ⟨hwrapped, hwrapped ▸ (hstrips (by decide)).2, (hmodel "e").trans (by decide)⟩

end Wrapper

end ResultSchema.Ident
