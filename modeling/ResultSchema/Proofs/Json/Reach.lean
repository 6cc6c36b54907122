import ResultSchema.Json.Location
import Mathlib.Data.List.Nodup

/-! # Values inside a document

Steps lead from a document to the values inside it. Where no object repeats a key, the same
steps lead to one value only.
-/

namespace ResultSchema.Json

variable {s : Step} {steps : List Step} {v u w : Json}

/-- The steps lead from a value to one inside it. -/
inductive Reaches : Json → List Step → Json → Prop
  | here (v : Json) : Reaches v [] v
  | step {s : Step} {steps : List Step} {v u w : Json} :
      s.Leads v u → Reaches u steps w → Reaches v (s :: steps) w

theorem exists_leads_of_mem {items : List Json} (h : u ∈ items) :
    ∃ s : Step, s.Leads (.arr items) u := by
  obtain ⟨i, hi⟩ := List.mem_iff_getElem?.mp h
  exact ⟨.index i, .index hi⟩

theorem leads_of_get? {name : String} (h : v.get? name = some u) : (Step.key name).Leads v u := by
  cases v with
  | obj entries =>
    obtain ⟨before, after, rfl, -⟩ := List.lookup_eq_some_iff.mp h
    exact .key (List.mem_append_right before List.mem_cons_self)
  | _ => cases h

/-- The value and every value inside it satisfy `P`. -/
def Throughout (P : Json → Prop) (v : Json) : Prop := ∀ steps w, v.Reaches steps w → P w

variable {P : Json → Prop}

theorem Throughout.here (h : v.Throughout P) : P v := h [] v (.here v)

theorem Throughout.inside (h : v.Throughout P) (hs : s.Leads v u) : u.Throughout P :=
  fun steps w hw => h (s :: steps) w (.step hs hw)

theorem throughout_of_leaf (hP : P v) (hleaf : ∀ s u, ¬ Step.Leads s v u) : v.Throughout P := by
  intro steps w hw
  cases hw with
  | here => exact hP
  | step hs => exact absurd hs (hleaf _ _)

theorem throughout_arr {items : List Json} (hP : P (.arr items))
    (h : ∀ v ∈ items, v.Throughout P) : (arr items).Throughout P := by
  intro steps w hw
  cases hw with
  | here => exact hP
  | step hs hw =>
    cases hs with
    | index hitem => exact h _ (List.mem_of_getElem? hitem) _ w hw

theorem throughout_obj {entries : List (String × Json)} (hP : P (.obj entries))
    (h : ∀ e ∈ entries, e.2.Throughout P) : (obj entries).Throughout P := by
  intro steps w hw
  cases hw with
  | here => exact hP
  | step hs hw =>
    cases hs with
    | key hentry => exact h _ hentry _ w hw

theorem sizeOf_lt_of_leads (h : s.Leads v u) : sizeOf u < sizeOf v := by
  cases h with
  | key h =>
    have hlt := List.sizeOf_lt_of_mem h
    simp only [Prod.mk.sizeOf_spec] at hlt
    simp only [obj.sizeOf_spec]
    omega
  | index h =>
    have hlt := List.sizeOf_lt_of_mem (List.mem_of_getElem? h)
    simp only [arr.sizeOf_spec]
    omega

theorem throughout_of_inside (v : Json)
    (step : ∀ v, (∀ (s : Step) (u : Json), s.Leads v u → u.Throughout P) → P v) :
    v.Throughout P := by
  have hinside (s : Step) (u : Json) (hs : s.Leads v u) : u.Throughout P :=
    throughout_of_inside u step
  intro steps w hw
  cases hw with
  | here => exact step v hinside
  | step hs hw => exact hinside _ _ hs _ w hw
termination_by sizeOf v
decreasing_by exact sizeOf_lt_of_leads hs

def KeysDistinct : Json → Prop
  | obj entries => (entries.map Prod.fst).Nodup
  | _ => True

theorem leads_unique (hv : v.KeysDistinct) (hu : s.Leads v u) (hw : s.Leads v w) : u = w := by
  cases hu with
  | key hu =>
    cases hw with
    | key hw =>
      have heq := List.inj_on_of_nodup_map hv hu hw rfl
      exact congrArg Prod.snd heq
  | index hu =>
    cases hw with
    | index hw =>
      rw [hu] at hw
      exact Option.some.inj hw

theorem reaches_unique (hv : v.Throughout KeysDistinct) (hu : v.Reaches steps u)
    (hw : v.Reaches steps w) : u = w := by
  induction hu with
  | here v =>
    cases hw
    rfl
  | step hs _ ih =>
    cases hw with
    | step hs' hw =>
      have heq := leads_unique hv.here hs hs'
      subst heq
      exact ih (hv.inside hs) hw

end ResultSchema.Json
