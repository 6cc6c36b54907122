import ResultSchema.Column.Basic

/-! # Unique names

Names are handed out in turn. A name that was handed out before gets its number as a
suffix, and again until it is new.
-/

namespace ResultSchema

/-- How often each name was asked for or met as a candidate. -/
structure UniqueNames where
  seen : OrderedMap Nat := .empty
  deriving DecidableEq, Repr

namespace UniqueNames

def count (names : UniqueNames) (name : String) : Nat := (names.seen.get? name).getD 0

/-- Counts one more occurrence of a name. -/
def record (names : UniqueNames) (name : String) : UniqueNames :=
  ⟨names.seen.insert name (names.count name + 1)⟩

theorem count_record (names : UniqueNames) (name other : String) :
    (names.record name).count other = names.count other + if other = name then 1 else 0 := by
  by_cases h : other = name
  · subst h
    simp [count, record, OrderedMap.get?_insert]
  · simp [count, record, OrderedMap.get?_insert, h]

def suffixed (name : String) (n : Nat) : String := name ++ "_" ++ toString n

theorem length_lt_length_suffixed (name : String) (n : Nat) :
    name.length < (suffixed name n).length := by
  have : "_".length = 1 := rfl
  simp only [suffixed, String.length_append]
  omega

/-- The number of names seen of at least that length. -/
def atLeast (names : UniqueNames) (length : Nat) : Nat :=
  (names.seen.keys.filter (length ≤ ·.length)).length

theorem mem_keys_of_count_ne_zero {names : UniqueNames} {name : String}
    (h : names.count name ≠ 0) : name ∈ names.seen.keys := by
  cases hn : names.seen.get? name with
  | none => simp [count, hn] at h
  | some n => exact OrderedMap.mem_keys_of_get? hn

theorem keys_record_of_mem {names : UniqueNames} {name : String} (h : name ∈ names.seen.keys) :
    (names.record name).seen.keys = names.seen.keys := by
  simp only [record, OrderedMap.insert, OrderedMap.keys, OrderedMap.keys_insertEntry]
  exact if_pos h

theorem atLeast_record_lt {names : UniqueNames} {name : String} {n : Nat}
    (h : names.count name ≠ 0) :
    (names.record name).atLeast (suffixed name n).length < names.atLeast name.length := by
  have hm := mem_keys_of_count_ne_zero h
  have hlen := length_lt_length_suffixed name n
  unfold atLeast
  rw [keys_record_of_mem hm]
  have hsub : (names.seen.keys.filter ((suffixed name n).length ≤ ·.length)) =
      (names.seen.keys.filter (name.length ≤ ·.length)).filter
        ((suffixed name n).length ≤ ·.length) := by
    rw [List.filter_filter]
    refine List.filter_congr fun k _ => ?_
    by_cases hk : (suffixed name n).length ≤ k.length
    · have : name.length ≤ k.length := by omega
      simp [hk, this]
    · simp [hk]
  rw [hsub]
  refine List.length_filter_lt_length_iff_exists.mpr ⟨name, ?_, ?_⟩
  · exact List.mem_filter.mpr ⟨hm, by simp⟩
  · simp only [decide_eq_true_eq]
    omega

/-- Hands out a name that was not handed out before. Every name met on the way was seen and
is longer than the last, so the search ends. -/
def fresh (names : UniqueNames) (name : String) : String × UniqueNames :=
  if names.count name = 0 then (name, names.record name)
  else (names.record name).fresh (suffixed name (names.count name + 1))
termination_by names.atLeast name.length
decreasing_by
  rename_i h
  exact atLeast_record_lt h

def freshAll (names : UniqueNames) : List String → List String
  | [] => []
  | name :: rest =>
    let (unique, names) := names.fresh name
    unique :: freshAll names rest

end UniqueNames

/-- Renames the columns so that no name occurs twice; a first occurrence keeps its name. -/
def dedupe (columns : List Column) : List Column :=
  columns.zipWith (fun c name => { c with name }) (UniqueNames.freshAll {} (columns.map (·.name)))

end ResultSchema
