import ResultSchema.Proofs.Column.Extra
import ResultSchema.Proofs.Outcome
import ResultSchema.Proofs.Stage.Chain
import ResultSchema.Stage.Reader

/-! # Declared columns of nested stages

The declared columns of a query are those of its stages, of the stages that these read and of
those that they join. In a query that was read, all of them have their extra keys apart.
-/

namespace ResultSchema

namespace Stage

variable {P : Column → Prop} {s t : Stage}

/-- Every column that is declared somewhere in the stage satisfies `P`. -/
def Declares (P : Column → Prop) (s : Stage) : Prop :=
  ∀ path t, s.at? path = some t → ∀ c ∈ t.metadata, P c

theorem Declares.own (h : s.Declares P) {c : Column} (hc : c ∈ s.metadata) : P c :=
  Throughout.own (P := fun t => ∀ c ∈ t.metadata, P c) h c hc

theorem Declares.source (h : s.Declares P) (ht : s.sourceStage? = some t) : t.Declares P :=
  Throughout.source (P := fun t => ∀ c ∈ t.metadata, P c) h ht

theorem declares_iff : s.Declares P ↔ (∀ c ∈ s.metadata, P c) ∧
    (∀ t, s.sourceStage? = some t → t.Declares P) ∧ ∀ j ∈ s.joins, j.stage.Declares P :=
  throughout_iff (P := fun t => ∀ c ∈ t.metadata, P c)

section Reading

variable {v : Json} {loc : Location} {entries : List (String × Json)}

theorem extraApart_of_readMetadata {columns : List Column}
    (h : readMetadata entries loc = .ok columns) {c : Column} (hc : c ∈ columns) :
    c.ExtraApart := by
  unfold readMetadata at h
  split at h
  · cases h
    cases hc
  · unfold readColumns at h
    split at h
    · rename_i hread
      cases h
      exact Column.extraApart_of_listOfJson hread hc
    · cases h

theorem mem_of_readEach {α : Type} {read : Nat → Json → Location → Reading α} {key : String}
    {items : List α} (h : readEach read entries key loc = .ok items) {a : α} (ha : a ∈ items) :
    ∃ i v place, read i v place = .ok a := by
  obtain ⟨values, -, h⟩ := bind_eq_ok_iff.mp h
  obtain ⟨⟨v, i⟩, -, hread⟩ := exists_of_mem_mapM h ha
  exact ⟨i, v, _, hread⟩

variable {readStage : Json → Location → Reading Stage}
variable (hread : ∀ {v loc s}, readStage v loc = .ok s → s.Declares Column.ExtraApart)

include hread

theorem declares_of_readJoin {j : Join Stage} (h : Join.readWith readStage v loc = .ok j) :
    j.stage.Declares Column.ExtraApart := by
  obtain ⟨entries, -, h⟩ := bind_eq_ok_iff.mp h
  obtain ⟨joinAlias, -, h⟩ := bind_eq_ok_iff.mp h
  obtain ⟨condition, -, h⟩ := bind_eq_ok_iff.mp h
  obtain ⟨s, hs, h⟩ := bind_eq_ok_iff.mp h
  cases h
  exact hread hs

theorem declares_of_readSource {source : Source Stage}
    (h : Source.readEntries readStage entries loc = .ok source) (hs : source.stage? = some s) :
    s.Declares Column.ExtraApart := by
  obtain ⟨table, htable, h⟩ := bind_eq_ok_iff.mp h
  split at h
  · cases h
    rw [Source.stage?_of_readTable htable] at hs
    cases hs
  · unfold Source.readWith at h
    split at h
    · cases h
      cases hs
    · obtain ⟨t, ht, rfl⟩ := map_eq_ok_iff.mp h
      cases hs
      exact hread ht

end Reading

theorem declares_of_readWithin {levels depth max : Nat} {v : Json} {loc : Location}
    (h : readWithin levels v loc depth max = .ok s) : s.Declares Column.ExtraApart := by
  induction levels generalizing v loc depth s with
  | zero => cases h
  | succ levels ih =>
    obtain ⟨entries, -, h⟩ := bind_eq_ok_iff.mp h
    obtain ⟨source, hsource, h⟩ := bind_eq_ok_iff.mp h
    obtain ⟨metadata, hmetadata, h⟩ := bind_eq_ok_iff.mp h
    obtain ⟨joins, hjoins, h⟩ := bind_eq_ok_iff.mp h
    obtain ⟨breakouts, -, h⟩ := bind_eq_ok_iff.mp h
    obtain ⟨aggregations, -, h⟩ := bind_eq_ok_iff.mp h
    obtain ⟨expressions, -, h⟩ := bind_eq_ok_iff.mp h
    obtain ⟨fields, -, h⟩ := bind_eq_ok_iff.mp h
    cases h
    refine declares_iff.mpr ⟨fun c hc => extraApart_of_readMetadata hmetadata hc,
      fun t ht => declares_of_readSource (fun hs => ih hs) hsource ht, fun j hj => ?_⟩
    obtain ⟨i, v, place, hjoin⟩ := mem_of_readEach hjoins hj
    exact declares_of_readJoin (fun hs => ih hs) hjoin

end Stage

namespace Query

def Declares (P : Column → Prop) (q : Query) : Prop := ∀ s, q.stage? = some s → s.Declares P

theorem declares_of_read {q : Query} {v : Json} {max : Nat} (h : read v max = .ok q) :
    q.Declares Column.ExtraApart := by
  obtain ⟨kind, -, h⟩ := bind_eq_ok_iff.mp h
  split at h
  · obtain ⟨inner, -, h⟩ := bind_eq_ok_iff.mp h
    obtain ⟨s, hs, rfl⟩ := map_eq_ok_iff.mp h
    rintro _ ⟨⟩
    exact Stage.declares_of_readWithin hs
  · obtain ⟨query, -, h⟩ := bind_eq_ok_iff.mp h
    cases h
    rintro _ ⟨⟩
  · cases h

end Query

end ResultSchema
