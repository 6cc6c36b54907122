import ResultSchema.Proofs.Names.Unique

/-! # The names that are handed out

A name is kept where it is new, and is numbered where it was handed out before. The search for a
new name looks at each name that was seen at most once. Names of which none is another one with
numbers are numbered by their occurrences.
-/

namespace ResultSchema

namespace UniqueNames

variable {names : UniqueNames} {name other : String}

section Suffixes

/-- A name with some numbers as suffixes, one after the other. -/
def suffixedBy (name : String) (numbers : List Nat) : String := numbers.foldl suffixed name

theorem underscore_not_mem_number (n : Nat) : '_' ∉ (toString n).toList := by
  intro h
  rw [Nat.toString_eq_repr, Nat.toList_repr] at h
  exact absurd (Nat.isDigit_of_mem_toDigits (by decide) (by decide) h) (by decide)

theorem number_inj {j k : Nat} (h : (toString j).toList = (toString k).toList) : j = k := by
  rw [Nat.toString_eq_repr, Nat.toString_eq_repr, Nat.toList_repr, Nat.toList_repr] at h
  simpa using congrArg (Nat.ofDigitChars 10 · 0) h

theorem append_cons_inj_of_not_mem {α : Type} {x : α} {l l' d d' : List α} (hd : x ∉ d)
    (hd' : x ∉ d') (h : l ++ x :: d = l' ++ x :: d') : l = l' ∧ d = d' := by
  rcases List.append_eq_append_iff.mp h with ⟨between, hl, hx⟩ | ⟨between, hl, hx⟩
  all_goals
    cases between with
    | nil =>
      cases hx
      exact ⟨by simp [hl], rfl⟩
    | cons y between =>
      cases hx
      simp at hd hd'

theorem suffixed_inj {j k : Nat} : suffixed name j = suffixed other k ↔ name = other ∧ j = k := by
  constructor
  · intro h
    have hlists : name.toList ++ '_' :: (toString j).toList =
        other.toList ++ '_' :: (toString k).toList := by
      simpa [suffixed, String.toList_append] using congrArg String.toList h
    obtain ⟨hname, hnumber⟩ := append_cons_inj_of_not_mem (underscore_not_mem_number j)
      (underscore_not_mem_number k) hlists
    exact ⟨String.toList_inj.mp hname, number_inj hnumber⟩
  · rintro ⟨rfl, rfl⟩
    rfl

/-- None of the names is another one with numbers. -/
def Apart (given : List String) : Prop :=
  ∀ name ∈ given, ∀ other ∈ given, ∀ numbers : List Nat, numbers ≠ [] → (∀ k ∈ numbers, 2 ≤ k) →
    other ≠ suffixedBy name numbers

theorem length_le_length_suffixedBy (name : String) (numbers : List Nat) :
    name.length ≤ (suffixedBy name numbers).length := by
  induction numbers generalizing name with
  | nil => exact Nat.le_refl _
  | cons k rest ih =>
    have hlt := length_lt_length_suffixed name k
    exact Nat.le_trans (Nat.le_of_lt hlt) (ih (suffixed name k))

theorem apart_replicate (n : Nat) (name : String) : Apart (List.replicate n name) := by
  intro first hfirst other hother numbers hne hnumbers heq
  obtain ⟨k, rest, rfl⟩ := List.exists_cons_of_ne_nil hne
  cases List.eq_of_mem_replicate hfirst
  cases List.eq_of_mem_replicate hother
  have hlt := length_lt_length_suffixed name k
  have hle := length_le_length_suffixedBy (suffixed name k) rest
  have hlength : name.length = (suffixedBy (suffixed name k) rest).length :=
    congrArg String.length heq
  omega

theorem Apart.ne_suffixed {given : List String} (h : Apart given) (hname : name ∈ given)
    (hother : other ∈ given) {k : Nat} (hk : 2 ≤ k) : other ≠ suffixed name k :=
  h name hname other hother [k] (List.cons_ne_nil _ _) (by simpa using hk)

end Suffixes

section Search

/-- The search for a new name, with a bound on the names that it looks at. -/
def freshWithin : Nat → UniqueNames → String → Option (String × UniqueNames)
  | 0, _, _ => none
  | looks + 1, names, name =>
    if names.count name = 0 then some (name, names.record name)
    else freshWithin looks (names.record name) (suffixed name (names.count name + 1))

/-- The search ends after it has looked at each name that was seen, and at a new one. -/
theorem freshWithin_eq_some {looks : Nat} (h : names.atLeast name.length < looks) :
    freshWithin looks names name = some (names.fresh name) := by
  induction names, name using fresh.induct generalizing looks with
  | case1 names name hcount =>
    obtain ⟨looks, rfl⟩ := Nat.exists_eq_succ_of_ne_zero (Nat.ne_zero_of_lt h)
    rw [fresh_of_count_eq_zero hcount, freshWithin, if_pos hcount]
  | case2 names name hcount ih =>
    obtain ⟨looks, rfl⟩ := Nat.exists_eq_succ_of_ne_zero (Nat.ne_zero_of_lt h)
    rw [fresh_of_count_ne_zero hcount, freshWithin, if_neg hcount]
    apply ih
    have hlt := atLeast_record_lt (n := names.count name + 1) hcount
    omega

theorem atLeast_le_length_keys (names : UniqueNames) (length : Nat) :
    names.atLeast length ≤ names.seen.keys.length := List.length_filter_le _ _

theorem count_fresh_ne_zero_iff : (names.fresh name).2.count other ≠ 0 ↔
    names.count other ≠ 0 ∨ other = (names.fresh name).1 := by
  induction names, name using fresh.induct with
  | case1 names name hcount =>
    rw [fresh_of_count_eq_zero hcount, count_record]
    split <;> simp_all
  | case2 names name hcount ih =>
    rw [fresh_of_count_ne_zero hcount, ih, count_record]
    by_cases h : other = name
    · subst h
      simp [hcount]
    · simp [h]

theorem fresh_fst_eq_self_iff : (names.fresh name).1 = name ↔ names.count name = 0 := by
  constructor
  · intro h
    have hcount := count_fresh names name
    rwa [h] at hcount
  · intro h
    rw [fresh_of_count_eq_zero h]

theorem exists_fresh_eq_suffixedBy (names : UniqueNames) (name : String) :
    ∃ numbers : List Nat, (∀ k ∈ numbers, 2 ≤ k) ∧
      (names.fresh name).1 = suffixedBy name numbers := by
  induction names, name using fresh.induct with
  | case1 names name hcount =>
    rw [fresh_of_count_eq_zero hcount]
    exact ⟨[], by simp, rfl⟩
  | case2 names name hcount ih =>
    obtain ⟨numbers, hnumbers, heq⟩ := ih
    rw [fresh_of_count_ne_zero hcount]
    refine ⟨(names.count name + 1) :: numbers, ?_, heq⟩
    rw [List.forall_mem_cons]
    exact ⟨by omega, hnumbers⟩

end Search

section Runs

def after (names : UniqueNames) (given : List String) : UniqueNames :=
  given.foldl (fun names name => (names.fresh name).2) names

theorem take_freshAll (names : UniqueNames) (given : List String) (i : Nat) :
    (names.freshAll given).take i = names.freshAll (given.take i) := by
  induction given generalizing names i with
  | nil => rw [List.take_nil]; exact List.take_nil
  | cons name rest ih =>
    cases i with
    | zero => rfl
    | succ i => exact congrArg ((names.fresh name).1 :: ·) (ih (names.fresh name).2 i)

theorem getElem?_freshAll (names : UniqueNames) {given : List String} {i : Nat} (h : given[i]? = some name) :
    (names.freshAll given)[i]? = some ((names.after (given.take i)).fresh name).1 := by
  induction given generalizing names i with
  | nil => simp at h
  | cons first rest ih =>
    cases i with
    | zero =>
      cases h
      rfl
    | succ i => exact ih (names.fresh first).2 h

theorem count_after_ne_zero_iff {given : List String} : (names.after given).count other ≠ 0 ↔
    names.count other ≠ 0 ∨ other ∈ names.freshAll given := by
  induction given generalizing names with
  | nil => simp [after, freshAll]
  | cons name rest ih =>
    show ((names.fresh name).2.after rest).count other ≠ 0 ↔ _
    rw [ih, count_fresh_ne_zero_iff, or_assoc, ← List.mem_cons]
    rfl

theorem count_append_singleton (before : List String) (name other : String) :
    (before ++ [name]).count other = before.count other + if other = name then 1 else 0 := by
  simp only [List.count_append, List.count_singleton, beq_iff_eq, @eq_comm _ name other]

/-- Handing out names that are apart: each given name was counted as often as it occurred, and every
other name that was seen is one of them with the number of an occurrence. -/
structure CountsOccurrences (names : UniqueNames) (before given : List String) : Prop where
  count_eq : ∀ name ∈ given, names.count name = before.count name
  seen : ∀ name, names.count name ≠ 0 → name ∈ before ∨
    ∃ first ∈ before, ∃ k ≤ before.count first, name = suffixed first k

namespace CountsOccurrences

variable {before given : List String}

theorem start : CountsOccurrences {} [] given where
  count_eq _ _ := rfl
  seen _ h := absurd rfl h

theorem seen_append (h : CountsOccurrences names before given) (hcount : names.count other ≠ 0) :
    other ∈ before ++ [name] ∨ ∃ first ∈ before ++ [name],
      ∃ k ≤ (before ++ [name]).count first, other = suffixed first k := by
  rcases h.seen other hcount with hmem | ⟨first, hfirst, k, hk, rfl⟩
  · exact .inl (List.mem_append_left _ hmem)
  · refine .inr ⟨first, List.mem_append_left _ hfirst, k, ?_, rfl⟩
    rw [List.count_append]
    omega

theorem count_suffixed (h : CountsOccurrences names before given) (hapart : Apart given)
    (hsub : before ⊆ given) (hname : name ∈ given) (hold : before.count name ≠ 0) :
    names.count (suffixed name (before.count name + 1)) = 0 := by
  by_contra hcount
  rcases h.seen _ hcount with hmem | ⟨first, -, k, hk, heq⟩
  · exact hapart.ne_suffixed hname (hsub hmem) (by omega) rfl
  · obtain ⟨rfl, rfl⟩ := suffixed_inj.mp heq
    omega

/-- A name is handed out as it is at first, and with the number of its occurrence later on. -/
theorem fresh_eq (h : CountsOccurrences names before given) (hapart : Apart given)
    (hsub : before ⊆ given) (hname : name ∈ given) : names.fresh name =
      if before.count name = 0 then (name, names.record name)
      else (suffixed name (before.count name + 1),
        (names.record name).record (suffixed name (before.count name + 1))) := by
  have hcount := h.count_eq name hname
  split
  · rename_i hnew
    exact fresh_of_count_eq_zero (hcount.trans hnew)
  · rename_i hold
    have hne : suffixed name (before.count name + 1) ≠ name :=
      (hapart.ne_suffixed hname hname (by omega)).symm
    rw [fresh_of_count_ne_zero (hcount ▸ hold), hcount]
    apply fresh_of_count_eq_zero
    rw [count_record, if_neg hne, h.count_suffixed hapart hsub hname hold]

theorem step (h : CountsOccurrences names before given) (hapart : Apart given)
    (hsub : before ⊆ given) (hname : name ∈ given) :
    CountsOccurrences (names.fresh name).2 (before ++ [name]) given := by
  rw [h.fresh_eq hapart hsub hname]
  split
  · constructor
    · intro other hother
      rw [count_record, h.count_eq other hother, count_append_singleton]
    · intro other hcount
      rw [count_record] at hcount
      by_cases heq : other = name
      · exact .inl (by simp [heq])
      · exact h.seen_append (by simpa [heq] using hcount)
  · rename_i hold
    constructor
    · intro other hother
      have hne : other ≠ suffixed name (before.count name + 1) :=
        hapart.ne_suffixed hname hother (by omega)
      rw [count_record, if_neg hne, Nat.add_zero, count_record, h.count_eq other hother,
        count_append_singleton]
    · intro other hcount
      rw [count_record, count_record] at hcount
      by_cases hnumbered : other = suffixed name (before.count name + 1)
      · exact .inr ⟨name, by simp, before.count name + 1, by simp, hnumbered⟩
      by_cases heq : other = name
      · exact .inl (by simp [heq])
      · exact h.seen_append (by simpa [heq, hnumbered] using hcount)

theorem run (h : CountsOccurrences names before given) (hapart : Apart given)
    (hsub : before ⊆ given) {more : List String} (hmore : more ⊆ given) :
    CountsOccurrences (names.after more) (before ++ more) given := by
  induction more generalizing names before with
  | nil =>
    rw [List.append_nil]
    exact h
  | cons name rest ih =>
    obtain ⟨hname, hrest⟩ := List.cons_subset.mp hmore
    have hsub' : before ++ [name] ⊆ given :=
      List.append_subset.mpr ⟨hsub, by simpa using hname⟩
    have hrun := ih (h.step hapart hsub hname) hsub' hrest
    rwa [List.append_assoc] at hrun

end CountsOccurrences

end Runs

/-- The `k`-th occurrence of a name gets the number `k`, when the given names are apart. -/
theorem fresh_after_of_apart {given : List String} (hapart : Apart given) {i : Nat}
    (h : given[i]? = some name) (hold : 2 ≤ (given.take (i + 1)).count name) :
    ((({} : UniqueNames).after (given.take i)).fresh name).1 =
      suffixed name ((given.take (i + 1)).count name) := by
  have hcount : (given.take (i + 1)).count name = (given.take i).count name + 1 := by
    rw [List.take_add_one, h, Option.toList_some, count_append_singleton, if_pos rfl]
  have hcounts := CountsOccurrences.start.run hapart (List.nil_subset _) (List.take_subset i given)
  rw [List.nil_append] at hcounts
  rw [hcounts.fresh_eq hapart (List.take_subset i given) (List.mem_of_getElem? h), if_neg, hcount]
  omega

end UniqueNames

theorem forall₂_dedupe_name (columns : List Column) :
    List.Forall₂ (fun c d => ∃ name, d = { c with name }) columns (dedupe columns) := by
  apply forall₂_dedupe
  · rintro c _ name ⟨other, rfl⟩
    exact ⟨name, rfl⟩
  · exact List.forall₂_same.mpr fun c _ => ⟨c.name, rfl⟩

namespace UniqueNames

/-- The names that are handed out. Each search ends, no name is handed out twice, and a given name
is kept exactly if it was not handed out before. Otherwise it gets one or more numbers, which is the
number of its occurrence if the given names are apart. Columns are renamed this way once only, and
nothing but their names changes. -/
theorem freshAll_spec (given : List String) (columns : List Column) :
    (∀ (names : UniqueNames) (name : String),
      freshWithin (names.seen.keys.length + 1) names name = some (names.fresh name)) ∧
    (freshAll {} given).length = given.length ∧ (freshAll {} given).Nodup ∧
    (∀ (i : Nat) (name : String), given[i]? = some name →
      ∃ unique, (freshAll {} given)[i]? = some unique ∧
        (unique = name ↔ name ∉ (freshAll {} given).take i) ∧
        (name ∈ (freshAll {} given).take i → ∃ numbers : List Nat, numbers ≠ [] ∧
          (∀ k ∈ numbers, 2 ≤ k) ∧ unique = suffixedBy name numbers) ∧
        (Apart given → 2 ≤ (given.take (i + 1)).count name →
          unique = suffixed name ((given.take (i + 1)).count name))) ∧
    dedupe (dedupe columns) = dedupe columns ∧
    ((columns.map (·.name)).Nodup → dedupe columns = columns) ∧
    List.Forall₂ (fun c d => ∃ name, d = { c with name }) columns (dedupe columns) := by
  refine ⟨fun names name => ?_, length_freshAll {} given, freshAll_nodup {} given,
    fun i name h => ?_, dedupe_of_nodup (names_dedupe_nodup columns), dedupe_of_nodup,
    forall₂_dedupe_name columns⟩
  · apply freshWithin_eq_some
    have hle := atLeast_le_length_keys names name.length
    omega
  · have hold : (({} : UniqueNames).after (given.take i)).count name ≠ 0 ↔
        name ∈ (freshAll {} given).take i := by
      rw [take_freshAll, count_after_ne_zero_iff]
      exact or_iff_right fun h => h rfl
    refine ⟨_, getElem?_freshAll {} h, ?_, ?_, fun hapart => fresh_after_of_apart hapart h⟩
    · rw [fresh_fst_eq_self_iff, ← hold, not_not]
    · intro hmem
      obtain ⟨numbers, hnumbers, heq⟩ :=
        exists_fresh_eq_suffixedBy (({} : UniqueNames).after (given.take i)) name
      refine ⟨numbers, ?_, hnumbers, heq⟩
      rintro rfl
      exact hold.mpr hmem (fresh_fst_eq_self_iff.mp heq)

theorem freshAll_spec_collisions :
    freshAll {} ["a", "a", "a_2", "a", "a_2_2"] = ["a", "a_2", "a_2_2", "a_3", "a_2_2_2"] ∧
      (∃ numbers : List Nat, numbers ≠ [] ∧ (∀ k ∈ numbers, 2 ≤ k) ∧
        "a_2_2_2" = suffixedBy "a_2_2" numbers) ∧
      (freshAll {} ["count", "count", "count"])[2]? = some "count_3" := by
  have hgiven : freshAll {} ["a", "a", "a_2", "a", "a_2_2"] =
      ["a", "a_2", "a_2_2", "a_3", "a_2_2_2"] := by decide +kernel
  refine ⟨hgiven, ?_, ?_⟩
  · obtain ⟨-, -, -, hnames, -⟩ := freshAll_spec ["a", "a", "a_2", "a", "a_2_2"] []
    obtain ⟨unique, hunique, -, hnumbers, -⟩ := hnames 4 "a_2_2" rfl
    rw [hgiven] at hunique hnumbers
    cases hunique
    exact hnumbers (by decide)
  · obtain ⟨-, -, -, hnames, -⟩ := freshAll_spec ["count", "count", "count"] []
    obtain ⟨unique, hunique, -, -, hcounted⟩ := hnames 2 "count" rfl
    rw [hunique, hcounted (apart_replicate 3 "count") (by decide)]
    decide

end UniqueNames

end ResultSchema
