import ResultSchema.Column.Names
import ResultSchema.Proofs.Outcome

/-! # Distinctness of the names handed out

A name is handed out when its count is zero, and its count is positive from then on. No
name is therefore handed out twice, and the columns that are renamed this way differ from
the given ones in their names only.
-/

namespace ResultSchema

namespace UniqueNames

variable {names : UniqueNames}

theorem fresh_of_count_eq_zero {name : String} (h : names.count name = 0) :
    names.fresh name = (name, names.record name) := by
  rw [fresh, if_pos h]

theorem fresh_of_count_ne_zero {name : String} (h : names.count name ≠ 0) :
    names.fresh name =
      (names.record name).fresh (suffixed name (names.count name + 1)) := by
  rw [fresh, if_neg h]

theorem count_le_record (name other : String) :
    names.count other ≤ (names.record name).count other := by
  rw [count_record]; omega

theorem count_le_fresh (names : UniqueNames) (name other : String) :
    names.count other ≤ (names.fresh name).2.count other := by
  induction names, name using fresh.induct with
  | case1 names name h =>
    rw [fresh_of_count_eq_zero h]
    exact count_le_record name other
  | case2 names name h ih =>
    rw [fresh_of_count_ne_zero h]
    exact Nat.le_trans (count_le_record name other) ih

theorem count_fresh (names : UniqueNames) (name : String) :
    names.count (names.fresh name).1 = 0 := by
  induction names, name using fresh.induct with
  | case1 names name h => rwa [fresh_of_count_eq_zero h]
  | case2 names name h ih =>
    rw [fresh_of_count_ne_zero h]
    exact Nat.le_zero.mp (ih ▸ count_le_record name _)

theorem count_fresh_ne_zero (names : UniqueNames) (name : String) :
    (names.fresh name).2.count (names.fresh name).1 ≠ 0 := by
  induction names, name using fresh.induct with
  | case1 names name h =>
    rw [fresh_of_count_eq_zero h, count_record]
    simp
  | case2 names name h ih => rwa [fresh_of_count_ne_zero h]

@[simp] theorem length_freshAll (names : UniqueNames) (given : List String) :
    (names.freshAll given).length = given.length := by
  induction given generalizing names with
  | nil => rfl
  | cons name rest ih => simp [freshAll, ih]

theorem count_of_mem_freshAll {given : List String} {name : String}
    (h : name ∈ names.freshAll given) : names.count name = 0 := by
  induction given generalizing names with
  | nil => simp [freshAll] at h
  | cons first rest ih =>
    rcases List.mem_cons.mp h with rfl | h
    · exact count_fresh names first
    · have hc := ih h
      have hle := count_le_fresh names first name
      omega

theorem freshAll_nodup (names : UniqueNames) (given : List String) :
    (names.freshAll given).Nodup := by
  induction given generalizing names with
  | nil => exact .nil
  | cons name rest ih =>
    refine List.nodup_cons.mpr ⟨fun h => ?_, ih _⟩
    exact count_fresh_ne_zero names name (count_of_mem_freshAll h)

theorem freshAll_of_nodup {given : List String} (hnodup : given.Nodup)
    (hnew : ∀ name ∈ given, names.count name = 0) : names.freshAll given = given := by
  induction given generalizing names with
  | nil => rfl
  | cons name rest ih =>
    obtain ⟨hname, hrest⟩ := List.nodup_cons.mp hnodup
    rw [freshAll, fresh_of_count_eq_zero (hnew name List.mem_cons_self)]
    refine congrArg (name :: ·) (ih hrest fun other hother => ?_)
    have hne : other ≠ name := fun h => hname (h ▸ hother)
    rw [count_record, if_neg hne, hnew other (List.mem_cons_of_mem name hother)]

end UniqueNames

theorem dedupe_of_nodup {columns : List Column} (h : (columns.map (·.name)).Nodup) :
    dedupe columns = columns := by
  unfold dedupe
  rw [UniqueNames.freshAll_of_nodup h fun _ _ => rfl, List.zipWith_map_right, List.zipWith_self]
  exact List.map_id columns

theorem dedupe_eq_map_zip (columns : List Column) :
    dedupe columns = (columns.zip (UniqueNames.freshAll {} (columns.map (·.name)))).map
      fun p => { p.1 with name := p.2 } := by
  rw [List.map_zip_eq_zipWith]
  rfl

/-- What does not depend on the name holds of the columns under their new names. -/
theorem forall₂_dedupe {α : Type} {R : α → Column → Prop}
    (hR : ∀ a (c : Column) name, R a c → R a { c with name }) {l : List α}
    {columns : List Column} (h : List.Forall₂ R l columns) : List.Forall₂ R l (dedupe columns) := by
  rw [dedupe_eq_map_zip, List.forall₂_map_right_iff]
  have hzip : List.Forall₂ (fun a (p : Column × String) => R a p.1) l
      (columns.zip (UniqueNames.freshAll {} (columns.map (·.name)))) := by
    rw [← List.forall₂_map_right_iff, List.map_fst_zip (by simp)]
    exact h
  exact hzip.imp fun a p hp => hR a p.1 p.2 hp

theorem map_dedupe {β : Type} {view : Column → β}
    (hview : ∀ (c : Column) (name : String), view { c with name } = view c)
    (columns : List Column) : (dedupe columns).map view = columns.map view := by
  refine map_eq_iff_forall₂.mpr (forall₂_dedupe ?_ (map_eq_iff_forall₂.mp rfl))
  exact fun _ c name h => (hview c name).trans h

theorem forall_mem_iff_of_forall₂ {α β : Type} {P : α → Prop} {Q : β → Prop} {l : List α}
    {k : List β} (h : List.Forall₂ (fun a b => Q b ↔ P a) l k) :
    (∀ b ∈ k, Q b) ↔ ∀ a ∈ l, P a := by
  induction h with
  | nil => simp
  | cons hab _ ih => rw [List.forall_mem_cons, List.forall_mem_cons, hab, ih]

theorem forall_mem_of_map_eq {α β γ : Type} {f : α → γ} {g : β → γ} {l : List α} {k : List β}
    (h : l.map f = k.map g) (P : γ → Prop) : (∀ a ∈ l, P (f a)) ↔ ∀ b ∈ k, P (g b) := by
  rw [← List.forall_mem_map, h, List.forall_mem_map]

theorem forall_mem_dedupe {P : Column → Prop}
    (hP : ∀ (c : Column) (name : String), P { c with name } = P c) (columns : List Column) :
    (∀ c ∈ dedupe columns, P c) ↔ ∀ c ∈ columns, P c :=
  forall_mem_of_map_eq (map_dedupe hP columns) id

/-- A relation that fixes the name and survives renaming survives making names unique. -/
theorem dedupe_forall₂ {V : Column → Column → Prop} (hname : ∀ c d, V c d → c.name = d.name)
    (hrenamed : ∀ c d name, V c d → V { c with name } { d with name })
    {columns others : List Column} (h : List.Forall₂ V columns others) :
    List.Forall₂ V (dedupe columns) (dedupe others) := by
  have hnames : columns.map (·.name) = others.map (·.name) := map_eq_map_of_forall₂ hname h
  unfold dedupe
  rw [hnames]
  generalize UniqueNames.freshAll {} (others.map (·.name)) = names
  clear hnames
  induction h generalizing names with
  | nil => exact .nil
  | cons hcd _ ih =>
    cases names with
    | nil => exact .nil
    | cons name names => exact .cons (hrenamed _ _ name hcd) (ih names)

@[simp] theorem length_dedupe (columns : List Column) :
    (dedupe columns).length = columns.length := by
  simp [dedupe]

theorem names_dedupe (columns : List Column) :
    (dedupe columns).map (·.name) = UniqueNames.freshAll {} (columns.map (·.name)) := by
  rw [dedupe_eq_map_zip, List.map_map]
  exact List.map_snd_zip (by simp)

theorem names_dedupe_nodup (columns : List Column) : ((dedupe columns).map (·.name)).Nodup := by
  rw [names_dedupe]
  exact UniqueNames.freshAll_nodup {} _

end ResultSchema
