/-! # Maps that keep the order of insertion

A map is its list of entries with distinct keys. Inserting an old key replaces the value
in place; a new key goes to the end.
-/

namespace ResultSchema

/-- Entries with distinct keys, oldest first. -/
structure OrderedMap (α : Type) where
  entries : List (String × α)
  nodup : (entries.map Prod.fst).Nodup
  deriving DecidableEq, Repr

namespace OrderedMap

variable {α : Type}

def empty : OrderedMap α := ⟨[], .nil⟩

instance : Inhabited (OrderedMap α) := ⟨empty⟩

def keys (m : OrderedMap α) : List String := m.entries.map Prod.fst

def isEmpty (m : OrderedMap α) : Bool := m.entries.isEmpty

theorem eq_empty_of_isEmpty {m : OrderedMap α} (h : m.isEmpty) : m = empty := by
  obtain ⟨entries, nodup⟩ := m
  cases List.isEmpty_iff.mp h
  rfl

def get? (m : OrderedMap α) (key : String) : Option α := m.entries.lookup key

theorem get?_eq_some_iff {m : OrderedMap α} {key : String} {value : α} :
    m.get? key = some value ↔ (key, value) ∈ m.entries := by
  unfold get?
  rw [List.lookup_eq_some_iff]
  constructor
  · rintro ⟨before, after, h, -⟩
    rw [h]
    exact List.mem_append_right before List.mem_cons_self
  · intro h
    obtain ⟨before, after, hentries⟩ := List.append_of_mem h
    refine ⟨before, after, hentries, fun e he => ?_⟩
    have hnodup := m.nodup
    rw [hentries, List.map_append, List.nodup_append] at hnodup
    have hne := hnodup.2.2 e.1 (List.mem_map_of_mem he) key List.mem_cons_self
    simpa using Ne.symm hne

theorem mem_keys_of_get? {m : OrderedMap α} {key : String} {value : α}
    (h : m.get? key = some value) : key ∈ m.keys :=
  List.mem_map_of_mem (get?_eq_some_iff.mp h)

theorem get?_eq_of_perm {m n : OrderedMap α} (h : m.entries.Perm n.entries) : m.get? = n.get? := by
  funext key
  refine Option.ext fun value => ?_
  rw [get?_eq_some_iff, get?_eq_some_iff, h.mem_iff]

def insertEntry (key : String) (value : α) : List (String × α) → List (String × α)
  | [] => [(key, value)]
  | (k, v) :: rest => if k = key then (k, value) :: rest else (k, v) :: insertEntry key value rest

theorem keys_insertEntry (key : String) (value : α) (l : List (String × α)) :
    (insertEntry key value l).map Prod.fst =
      if key ∈ l.map Prod.fst then l.map Prod.fst else l.map Prod.fst ++ [key] := by
  induction l with
  | nil => simp [insertEntry]
  | cons e rest ih =>
    obtain ⟨k, v⟩ := e
    by_cases h : k = key
    · simp [insertEntry, h]
    · have h' : ¬ key = k := fun e => h e.symm
      by_cases hm : key ∈ rest.map Prod.fst
      · simp only [insertEntry, h, if_false, List.map_cons, ih, hm, if_true, List.mem_cons, or_true]
      · simp only [insertEntry, h, h', if_false, List.map_cons, ih, hm, List.mem_cons, or_self,
          List.cons_append]

theorem nodup_insertEntry (key : String) (value : α) {l : List (String × α)}
    (h : (l.map Prod.fst).Nodup) : ((insertEntry key value l).map Prod.fst).Nodup := by
  rw [keys_insertEntry]
  split
  · exact h
  · rename_i hk
    refine List.nodup_append.mpr ⟨h, by simp, ?_⟩
    rintro a ha b hb rfl
    exact hk (List.mem_singleton.mp hb ▸ ha)

theorem lookup_insertEntry (key : String) (value : α) (l : List (String × α)) (other : String) :
    (insertEntry key value l).lookup other = if other = key then some value else l.lookup other := by
  induction l with
  | nil =>
    by_cases h : other = key
    · simp [insertEntry, h]
    · have hb : (other == key) = false := by simp [h]
      simp [insertEntry, List.lookup_cons, h, hb]
  | cons e rest ih =>
    obtain ⟨k, v⟩ := e
    by_cases hk : k = key
    · subst hk
      by_cases h : other = k
      · simp [insertEntry, h]
      · have hb : (other == k) = false := by simp [h]
        simp [insertEntry, List.lookup_cons, h, hb]
    · rw [insertEntry, if_neg hk, List.lookup_cons, List.lookup_cons, ih]
      by_cases h : other = k
      · subst h
        simp [hk]
      · have hb : (other == k) = false := by simp [h]
        simp [hb]

theorem insertEntry_of_mem {key : String} {value : α} {l : List (String × α)}
    (hnodup : (l.map Prod.fst).Nodup) (h : (key, value) ∈ l) : insertEntry key value l = l := by
  induction l with
  | nil => cases h
  | cons e rest ih =>
    obtain ⟨k, v⟩ := e
    obtain ⟨hk, hrest⟩ := List.nodup_cons.mp hnodup
    rcases List.mem_cons.mp h with heq | hmem
    · cases heq
      exact if_pos rfl
    · have hne : k ≠ key := by
        rintro rfl
        exact hk (List.mem_map.mpr ⟨_, hmem, rfl⟩)
      rw [insertEntry, if_neg hne, ih hrest hmem]

theorem insertEntry_of_not_mem {key : String} {value : α} {l : List (String × α)}
    (h : key ∉ l.map Prod.fst) : insertEntry key value l = l ++ [(key, value)] := by
  induction l with
  | nil => rfl
  | cons e rest ih =>
    obtain ⟨k, v⟩ := e
    rw [List.map_cons, List.mem_cons, not_or] at h
    rw [insertEntry, if_neg (Ne.symm h.1), ih h.2, List.cons_append]

def insert (m : OrderedMap α) (key : String) (value : α) : OrderedMap α where
  entries := insertEntry key value m.entries
  nodup := nodup_insertEntry key value m.nodup

theorem get?_insert (m : OrderedMap α) (key : String) (value : α) (other : String) :
    (m.insert key value).get? other = if other = key then some value else m.get? other :=
  lookup_insertEntry key value m.entries other

theorem insert_of_mem (m : OrderedMap α) {e : String × α} (h : e ∈ m.entries) :
    m.insert e.1 e.2 = m := by
  obtain ⟨entries, nodup⟩ := m
  simp only [insert, insertEntry_of_mem nodup h]

/-- Every given entry inserted in turn, so that the last of a repeated key is kept. -/
def insertAll (m : OrderedMap α) (entries : List (String × α)) : OrderedMap α :=
  entries.foldl (fun m e => m.insert e.1 e.2) m

def ofList (entries : List (String × α)) : OrderedMap α := insertAll empty entries

theorem insertAll_append (m : OrderedMap α) (entries others : List (String × α)) :
    m.insertAll (entries ++ others) = (m.insertAll entries).insertAll others := List.foldl_append

theorem insertAll_of_subset (m : OrderedMap α) {entries : List (String × α)}
    (h : ∀ e ∈ entries, e ∈ m.entries) : m.insertAll entries = m := by
  induction entries with
  | nil => rfl
  | cons e rest ih =>
    rw [insertAll, List.foldl_cons, m.insert_of_mem (h e List.mem_cons_self)]
    exact ih fun other ho => h other (List.mem_cons_of_mem e ho)

theorem entries_insertAll {m : OrderedMap α} {entries : List (String × α)}
    (h : ((m.entries ++ entries).map Prod.fst).Nodup) :
    (m.insertAll entries).entries = m.entries ++ entries := by
  induction entries generalizing m with
  | nil => simp [insertAll]
  | cons e rest ih =>
    have hnew : e.1 ∉ m.entries.map Prod.fst := by
      rw [List.map_append, List.nodup_append] at h
      exact fun hmem => h.2.2 e.1 hmem e.1 (List.mem_map_of_mem List.mem_cons_self) rfl
    have hentries : (m.insert e.1 e.2).entries = m.entries ++ [e] := insertEntry_of_not_mem hnew
    have hrest : (((m.insert e.1 e.2).entries ++ rest).map Prod.fst).Nodup := by
      rwa [hentries, List.append_assoc, List.singleton_append]
    rw [insertAll, List.foldl_cons]
    refine (ih hrest).trans ?_
    rw [hentries, List.append_assoc, List.singleton_append]

theorem ofList_entries (m : OrderedMap α) : ofList m.entries = m := by
  obtain ⟨entries, nodup⟩ := m
  have hentries : (ofList entries).entries = [] ++ entries := entries_insertAll nodup
  rw [List.nil_append] at hentries
  cases hm : ofList entries with
  | mk others _ =>
    rw [hm] at hentries
    cases hentries
    rfl

theorem mem_keys_insert {m : OrderedMap α} {key : String} {value : α} {other : String} :
    other ∈ (m.insert key value).keys ↔ other ∈ m.keys ∨ other = key := by
  simp only [keys, insert, keys_insertEntry]
  split
  · rename_i hm
    exact ⟨.inl, fun h => h.elim id fun he => he ▸ hm⟩
  · rw [List.mem_append, List.mem_singleton]

theorem mem_keys_insertAll {m : OrderedMap α} {entries : List (String × α)} {key : String} :
    key ∈ (m.insertAll entries).keys ↔ key ∈ m.keys ∨ key ∈ entries.map Prod.fst := by
  induction entries generalizing m with
  | nil => simp [insertAll]
  | cons e rest ih =>
    rw [insertAll, List.foldl_cons]
    change key ∈ ((m.insert e.1 e.2).insertAll rest).keys ↔ _
    rw [ih, mem_keys_insert, List.map_cons, List.mem_cons, or_assoc]

theorem isSome_get?_iff {m : OrderedMap α} {key : String} : (m.get? key).isSome ↔ key ∈ m.keys := by
  simp only [Option.isSome_iff_exists, get?_eq_some_iff, keys, List.mem_map, Prod.exists,
    exists_and_right, exists_eq_right]

theorem ext_get? {m n : OrderedMap α} (hkeys : m.keys = n.keys) (hget : m.get? = n.get?) :
    m = n := by
  have hentries : ∀ m : OrderedMap α,
      m.entries.map (fun e => (e.1, some e.2)) = m.keys.map fun key => (key, m.get? key) := by
    intro m
    rw [keys, List.map_map]
    refine List.map_congr_left fun e he => ?_
    exact congrArg (Prod.mk e.1) (get?_eq_some_iff.mpr he).symm
  have heq : m.entries = n.entries := by
    refine (List.map_inj_right (f := fun e : String × α => (e.1, some e.2)) ?_).mp ?_
    · rintro ⟨k, v⟩ ⟨_, _⟩ ⟨⟩
      rfl
    · rw [hentries, hentries, hkeys, hget]
  cases m
  cases n
  cases heq
  rfl

/-- The last value inserted for a key is found, else the one that was there. -/
theorem get?_insertAll (m : OrderedMap α) (entries : List (String × α)) (key : String) :
    (m.insertAll entries).get? key = ((ofList entries).get? key).or (m.get? key) := by
  induction entries generalizing m with
  | nil => rfl
  | cons e rest ih =>
    have hcons : ∀ m : OrderedMap α,
        m.insertAll (e :: rest) = (m.insert e.1 e.2).insertAll rest := fun _ => rfl
    rw [ofList, hcons, hcons, ih, ih (insert _ _ _), get?_insert, get?_insert, Option.or_assoc]
    split <;> rfl

theorem insertAll_eq_self {m : OrderedMap α} {entries : List (String × α)}
    (h : (m.insertAll entries).get? = m.get?) : m.insertAll entries = m := by
  have hmem : ∀ key ∈ entries.map Prod.fst, key ∈ m.keys := by
    intro key hkey
    rw [← isSome_get?_iff, ← h, isSome_get?_iff, mem_keys_insertAll]
    exact .inr hkey
  refine ext_get? ?_ h
  clear h
  induction entries generalizing m with
  | nil => rfl
  | cons e rest ih =>
    obtain ⟨he, hrest⟩ := List.forall_mem_cons.mp hmem
    have hkeys : (m.insert e.1 e.2).keys = m.keys := by
      unfold keys insert
      rw [keys_insertEntry]
      exact if_pos he
    exact (ih (hkeys ▸ hrest)).trans hkeys

@[simp] theorem insertAll_insertAll (m : OrderedMap α) (entries : List (String × α)) :
    (m.insertAll entries).insertAll entries = m.insertAll entries := by
  refine insertAll_eq_self (funext fun key => ?_)
  rw [get?_insertAll, get?_insertAll m, ← Option.or_assoc, Option.or_self]

/-- The entries that satisfy `p`, in their order. -/
def filter (m : OrderedMap α) (p : String × α → Bool) : OrderedMap α where
  entries := m.entries.filter p
  nodup := (List.filter_sublist.map Prod.fst).nodup m.nodup

theorem get?_filter (m : OrderedMap α) (p : String × α → Bool) (key : String) :
    (m.filter p).get? key = (m.get? key).filter fun value => p (key, value) := by
  refine Option.ext fun value => ?_
  rw [get?_eq_some_iff, filter, List.mem_filter, Option.filter_eq_some_iff, get?_eq_some_iff]

theorem get?_ofList_filter (m : OrderedMap α) (p : String × α → Bool) (key : String) :
    (ofList (m.entries.filter p)).get? key = (m.get? key).filter fun value => p (key, value) := by
  have hfiltered : ofList (m.entries.filter p) = m.filter p := ofList_entries (m.filter p)
  rw [hfiltered, get?_filter]

/-- The entries of `m` overlaid by those of `n`. -/
def union (m n : OrderedMap α) : OrderedMap α := m.insertAll n.entries

theorem mem_keys_union {m n : OrderedMap α} {key : String} :
    key ∈ (m.union n).keys ↔ key ∈ m.keys ∨ key ∈ n.keys := mem_keys_insertAll

theorem get?_union (m n : OrderedMap α) (key : String) :
    (m.union n).get? key = (n.get? key).or (m.get? key) := by
  rw [union, get?_insertAll, ofList_entries]

@[simp] theorem union_self (m : OrderedMap α) : m.union m = m :=
  m.insertAll_of_subset fun _ h => h

end OrderedMap

end ResultSchema
