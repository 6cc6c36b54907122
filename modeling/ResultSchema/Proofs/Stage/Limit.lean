import ResultSchema.Proofs.Outcome
import ResultSchema.Stage.Reader

/-! # Limits of nesting

Reading counts levels on its way down, the depth of a stage counts them on its way up. Both
count the same: what was read under one limit is read under a lower one exactly when it is
not deeper, and else the first level below the limit is reported.
-/

namespace ResultSchema

variable {α β : Type}

/-- A reading under a lower limit beside one that may succeed: it gives the same value if that
value fits, and else it fails with the fault. -/
def Capped (fits : α → Prop) (fault : ReadFault) (high low : Reading α) : Prop :=
  ∀ a, high = .ok a →
    (fits a → low = .ok a) ∧ (¬ fits a → ∃ e, low = .error e ∧ e.fault = fault)

namespace Capped

variable {fits : α → Prop} {fits' : β → Prop} {fault : ReadFault} {high low : Reading α}

theorem of_fits {x : Reading α} (h : ∀ a, x = .ok a → fits a) : Capped fits fault x x :=
  fun a ha => ⟨fun _ => ha, fun hn => absurd (h a ha) hn⟩

/-- The second reading is only reached when what the first one gave fits. -/
theorem bind (h : Capped fits fault high low) {f g : α → Reading β}
    (hfits : ∀ a b, high = .ok a → f a = .ok b → fits' b → fits a)
    (hf : ∀ a, high = .ok a → fits a → Capped fits' fault (f a) (g a)) :
    Capped fits' fault (high >>= f) (low >>= g) := by
  intro b hb
  obtain ⟨a, ha, hb⟩ := bind_eq_ok_iff.mp hb
  obtain ⟨hfit, hmisfit⟩ := h a ha
  by_cases hp : fits a
  · rw [hfit hp]
    exact hf a ha hp b hb
  · obtain ⟨e, he, hfault⟩ := hmisfit hp
    refine ⟨fun hb' => absurd (hfits a b ha hb hb') hp, fun _ => ⟨e, ?_, hfault⟩⟩
    rw [he]
    rfl

theorem bind_same {x : Reading α} {f g : α → Reading β}
    (h : ∀ a, x = .ok a → Capped fits' fault (f a) (g a)) :
    Capped fits' fault (x >>= f) (x >>= g) := by
  have hx : Capped (fun _ => True) fault x x := of_fits fun _ _ => trivial
  exact hx.bind (fun _ _ _ _ _ => trivial) fun a ha _ => h a ha

theorem map (h : Capped fits fault high low) {f : α → β} (hf : ∀ a, fits' (f a) ↔ fits a) :
    Capped fits' fault (f <$> high) (f <$> low) := by
  rw [map_eq_pure_bind, map_eq_pure_bind]
  refine h.bind ?_ fun a _ ha => of_fits ?_
  · rintro a _ - ⟨⟩ hb
    exact (hf a).mp hb
  · rintro _ ⟨⟩
    exact (hf a).mpr ha

theorem mapM {f g : α → Reading β} (h : ∀ a, Capped fits' fault (f a) (g a)) (l : List α) :
    Capped (fun out => ∀ b ∈ out, fits' b) fault (l.mapM f) (l.mapM g) := by
  induction l with
  | nil =>
    refine of_fits ?_
    rintro _ ⟨⟩ b hb
    cases hb
  | cons a l ih =>
    rw [List.mapM_cons, List.mapM_cons]
    refine (h a).bind ?_ fun b _ hb => ih.bind ?_ fun rest _ hrest => of_fits ?_
    · intro b out _ hout hall
      obtain ⟨rest, -, hout⟩ := bind_eq_ok_iff.mp hout
      cases hout
      exact hall b List.mem_cons_self
    · rintro rest _ - ⟨⟩ hall b hb
      exact hall b (List.mem_cons_of_mem _ hb)
    · rintro _ ⟨⟩
      exact List.forall_mem_cons.mpr ⟨hb, hrest⟩

end Capped

namespace Stage

variable {s : Stage} {n : Nat}

theorem foldl_max_le_iff {l : List Nat} {a : Nat} :
    l.foldl max a ≤ n ↔ a ≤ n ∧ ∀ b ∈ l, b ≤ n := by
  induction l generalizing a with
  | nil => simp
  | cons b l ih => rw [List.foldl_cons, ih, Nat.max_le, and_assoc, List.forall_mem_cons]

theorem depth_eq (s : Stage) : s.depth = 1 + max ((s.sourceStage?.map depth).getD 0)
    ((s.joins.map fun j => j.stage.depth).foldl max 0) := fold_eq _ s

theorem depth_pos (s : Stage) : 0 < s.depth := by
  rw [depth_eq]
  omega

theorem depth_le_succ_iff : s.depth ≤ n + 1 ↔
    (∀ t, s.sourceStage? = some t → t.depth ≤ n) ∧ ∀ j ∈ s.joins, j.stage.depth ≤ n := by
  have hsource : (s.sourceStage?.map depth).getD 0 ≤ n ↔
      ∀ t, s.sourceStage? = some t → t.depth ≤ n := by
    cases s.sourceStage? <;> simp
  have hjoins : (s.joins.map fun j => j.stage.depth).foldl max 0 ≤ n ↔
      ∀ j ∈ s.joins, j.stage.depth ≤ n := by
    simp [foldl_max_le_iff]
  rw [depth_eq, Nat.add_comm, Nat.add_le_add_iff_right, Nat.max_le, hsource, hjoins]

def readNested (readStage : Json → Location → Reading Stage) (entries : List (String × Json))
    (loc : Location) : Reading (Source Stage × List (Join Stage)) := do
  let source ← Source.readEntries readStage entries loc
  let joins ← readEach (fun _ => Join.readWith readStage) entries "joins" loc
  pure (source, joins)

section Reading

variable {fault : ReadFault} {entries : List (String × Json)}
variable {high low : Json → Location → Reading Stage}

theorem readEach_capped {fits : β → Prop} {f g : Nat → Json → Location → Reading β}
    (h : ∀ i v loc, Capped fits fault (f i v loc) (g i v loc)) (key : String) (loc : Location) :
    Capped (fun out => ∀ b ∈ out, fits b) fault (readEach f entries key loc)
      (readEach g entries key loc) :=
  .bind_same fun _ _ => .mapM (fun _ => h _ _ _) _

variable (h : ∀ v loc, Capped (·.depth ≤ n) fault (high v loc) (low v loc))

include h

theorem readJoin_capped (v : Json) (loc : Location) :
    Capped (·.stage.depth ≤ n) fault (Join.readWith high v loc) (Join.readWith low v loc) := by
  refine .bind_same fun entries _ => .bind_same fun joinAlias _ => .bind_same fun condition _ => ?_
  refine (h v loc).bind ?_ fun t _ ht => .of_fits ?_
  · rintro t _ - ⟨⟩ ht
    exact ht
  · rintro _ ⟨⟩
    exact ht

theorem readSource_capped (loc : Location) :
    Capped (fun source => ∀ t, source.stage? = some t → t.depth ≤ n) fault
      (Source.readEntries high entries loc) (Source.readEntries low entries loc) := by
  refine .bind_same fun table htable => ?_
  split
  · refine .of_fits ?_
    rintro _ ⟨⟩ t ht
    rw [Source.stage?_of_readTable htable] at ht
    cases ht
  · unfold Source.readWith
    split
    · refine .of_fits ?_
      rintro _ ⟨⟩ t ht
      cases ht
    · exact (h _ _).map fun t => by simp [Source.stage?]

theorem readNested_capped (loc : Location) :
    Capped (fun nested => (∀ t, nested.1.stage? = some t → t.depth ≤ n) ∧
      ∀ j ∈ nested.2, j.stage.depth ≤ n) fault
      (readNested high entries loc) (readNested low entries loc) := by
  refine (readSource_capped h loc).bind ?_ fun source _ hsource => ?_
  · intro source nested _ hnested hfits
    obtain ⟨joins, -, hnested⟩ := bind_eq_ok_iff.mp hnested
    cases hnested
    exact hfits.1
  refine (readEach_capped (fun _ => readJoin_capped h) "joins" loc).bind ?_
    fun joins _ hjoins => .of_fits ?_
  · rintro joins _ - ⟨⟩ hfits
    exact hfits.2
  · rintro _ ⟨⟩
    exact ⟨hsource, hjoins⟩

end Reading

/-- Of a stage that was read, only what it reads and joins depends on the limit. -/
theorem readWithin_of_ok {levels depth max : Nat} {v : Json} {loc : Location}
    (h : readWithin (levels + 1) v loc depth max = .ok s) :
    ∃ entries, ∀ levels' max', readWithin (levels' + 1) v loc depth max' =
      (fun nested => { s with source := nested.1, joins := nested.2 }) <$>
        readNested (fun v loc => readWithin levels' v loc (depth + 1) max') entries loc := by
  obtain ⟨entries, hentries, h⟩ := bind_eq_ok_iff.mp h
  obtain ⟨source, -, h⟩ := bind_eq_ok_iff.mp h
  obtain ⟨metadata, hmetadata, h⟩ := bind_eq_ok_iff.mp h
  obtain ⟨joins, -, h⟩ := bind_eq_ok_iff.mp h
  obtain ⟨breakouts, hbreakouts, h⟩ := bind_eq_ok_iff.mp h
  obtain ⟨aggregations, haggregations, h⟩ := bind_eq_ok_iff.mp h
  obtain ⟨expressions, hexpressions, h⟩ := bind_eq_ok_iff.mp h
  obtain ⟨fields, hfields, h⟩ := bind_eq_ok_iff.mp h
  cases h
  refine ⟨entries, fun levels' max' => ?_⟩
  simp only [readWithin, readNested, hentries, hmetadata, hbreakouts, haggregations, hexpressions,
    hfields, ok_bind, map_bind, map_pure]

theorem readWithin_capped {high low max max' depth : Nat} (hle : low ≤ high) (v : Json)
    (loc : Location) : Capped (·.depth ≤ low) (.tooDeep (depth + low) max')
      (readWithin high v loc depth max) (readWithin low v loc depth max') := by
  induction high generalizing low depth v loc with
  | zero => exact fun _ h => nomatch h
  | succ high ih =>
    intro s hs
    cases low with
    | zero => exact ⟨fun h => absurd s.depth_pos (Nat.not_lt.mpr h), fun _ => ⟨_, rfl, rfl⟩⟩
    | succ low =>
      obtain ⟨entries, hread⟩ := readWithin_of_ok hs
      have hinner : ∀ v loc, Capped (·.depth ≤ low) (.tooDeep (depth + (low + 1)) max')
          (readWithin high v loc (depth + 1) max) (readWithin low v loc (depth + 1) max') := by
        intro v loc
        rw [Nat.add_comm low 1, ← Nat.add_assoc]
        exact ih (Nat.le_of_succ_le_succ hle) v loc
      have hstage : Capped (·.depth ≤ low + 1) (.tooDeep (depth + (low + 1)) max')
          (readWithin (high + 1) v loc depth max) (readWithin (low + 1) v loc depth max') := by
        rw [hread, hread]
        exact (readNested_capped hinner loc).map fun _ => depth_le_succ_iff
      exact hstage s hs

end Stage

namespace Query

/-- Levels of nesting; a native query has none. -/
def depth (q : Query) : Nat := (q.stage?.map Stage.depth).getD 0

theorem read_capped {low high : Nat} (hle : low ≤ high) (v : Json) :
    Capped (·.depth ≤ low) (.tooDeep (low + 1) low) (read v high) (read v low) := by
  refine .bind_same fun kind _ => ?_
  split
  · refine .bind_same fun inner _ => ?_
    rw [Nat.add_comm low 1]
    exact (Stage.readWithin_capped hle inner _).map fun s => Iff.rfl
  · refine .bind_same fun query _ => .of_fits ?_
    rintro _ ⟨⟩
    exact Nat.zero_le low
  · exact fun _ h => nomatch h

theorem depth_le_of_read {v : Json} {max : Nat} {q : Query} (h : read v max = .ok q) :
    q.depth ≤ max := by
  by_contra hd
  obtain ⟨e, he, -⟩ := (read_capped Nat.le.refl v q h).2 hd
  rw [h] at he
  cases he

end Query

end ResultSchema
