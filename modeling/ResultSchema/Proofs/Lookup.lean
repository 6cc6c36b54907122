import Mathlib.Data.List.Nodup
import Mathlib.Data.List.Perm.Basic

/-! # Lookup by distinct keys

Among items with distinct keys each is found under its own, wherever it stands.
-/

namespace ResultSchema

variable {α κ : Type} [BEq κ] [LawfulBEq κ] {key : α → κ} {l k : List α}

theorem find?_key_eq_some_iff (hnodup : (l.map key).Nodup) {x : κ} {a : α} :
    l.find? (key · == x) = some a ↔ a ∈ l ∧ key a = x := by
  constructor
  · intro h
    exact ⟨List.mem_of_find?_eq_some h, by simpa using List.find?_some h⟩
  · rintro ⟨ha, rfl⟩
    have hsome : (l.find? (key · == key a)).isSome :=
      List.find?_isSome.mpr ⟨a, ha, beq_self_eq_true _⟩
    obtain ⟨b, hb⟩ := Option.isSome_iff_exists.mp hsome
    have hkey : key b = key a := by simpa using List.find?_some hb
    rw [hb, List.inj_on_of_nodup_map hnodup (List.mem_of_find?_eq_some hb) ha hkey]

theorem find?_key_of_perm (h : l.Perm k) (hnodup : (l.map key).Nodup) (x : κ) :
    l.find? (key · == x) = k.find? (key · == x) := by
  have hnodup' : (k.map key).Nodup := (h.map key).nodup_iff.mp hnodup
  refine Option.ext fun a => ?_
  rw [find?_key_eq_some_iff hnodup, find?_key_eq_some_iff hnodup', h.mem_iff]

end ResultSchema
