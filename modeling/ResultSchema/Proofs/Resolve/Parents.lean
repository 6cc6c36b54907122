import ResultSchema.Proofs.Outcome
import ResultSchema.Resolve.Scope

/-! # Fields inside other fields

A field of the catalog is named after the fields that it is nested in. It has a column exactly
when all of these are known and there are not too many of them. Otherwise the first field that is
not known is to blame or, when the links lead on for too long or in a circle, the nested field.
-/

namespace ResultSchema.Lexicon

variable {lexicon : Lexicon}

/-- The fields around a field with the given parent link, nearest first. -/
inductive Parents (lexicon : Lexicon) : Option Int64 → List CatalogField → Prop
  | outermost : Parents lexicon none []
  | nested {id : Int64} {f : CatalogField} {parents : List CatalogField} :
      lexicon.catalog id = some f → Parents lexicon f.parentId parents →
        Parents lexicon (some id) (f :: parents)

/-- A name with the names of the fields around it in front, outermost first. -/
def nestedName (name : String) (parents : List CatalogField) : String :=
  parents.foldl (fun name f => f.name ++ "." ++ name) name

theorem field_eq_ok_iff {id : Int64} {f : CatalogField} :
    lexicon.field id = .ok f ↔ lexicon.catalog id = some f := by
  unfold field
  cases lexicon.catalog id <;> simp

theorem parentedName_eq_ok_iff {id : Int64} {left : Nat} {parent : Option Int64}
    {name fullName : String} : lexicon.parentedName id left parent name = .ok fullName ↔
      ∃ parents, lexicon.Parents parent parents ∧ parents.length ≤ left ∧
        fullName = nestedName name parents := by
  constructor
  · intro h
    induction left, parent, name using parentedName_induction with
    | outermost left name =>
      obtain rfl : name = fullName := by cases left <;> exact Except.ok.inj h
      exact ⟨[], .outermost, Nat.zero_le _, rfl⟩
    | cut => cases h
    | nested left parent name ih =>
      obtain ⟨f, hf, h⟩ := bind_eq_ok_iff.mp h
      obtain ⟨parents, hparents, hlength, rfl⟩ := ih f h
      exact ⟨f :: parents, .nested (field_eq_ok_iff.mp hf) hparents, Nat.succ_le_succ hlength, rfl⟩
  · rintro ⟨parents, hparents, hlength, rfl⟩
    induction hparents generalizing left name with
    | outermost => cases left <;> rfl
    | @nested parent f parents hf _ ih =>
      cases left with
      | zero => cases hlength
      | succ left =>
        exact bind_eq_ok_iff.mpr ⟨f, field_eq_ok_iff.mpr hf, ih (Nat.le_of_succ_le_succ hlength)⟩

/-- The field is known, and so are all fields around it, of which there are not too many. -/
def Resolves (lexicon : Lexicon) (id : Int64) : Prop :=
  ∃ f parents, lexicon.catalog id = some f ∧ lexicon.Parents f.parentId parents ∧
    parents.length ≤ maxParents

theorem column_eq_ok_iff {id : Int64} {c : Column} : lexicon.column id = .ok c ↔
    ∃ f parents, lexicon.catalog id = some f ∧ lexicon.Parents f.parentId parents ∧
      parents.length ≤ maxParents ∧
        c = { Column.ofField f with name := nestedName f.name parents } := by
  simp only [column, columnBy, bind_eq_ok_iff, field_eq_ok_iff, parentedName_eq_ok_iff, pure,
    Except.pure, Except.ok.injEq]
  constructor
  · rintro ⟨f, hf, _, ⟨parents, hparents, hlength, rfl⟩, rfl⟩
    exact ⟨f, parents, hf, hparents, hlength, rfl⟩
  · rintro ⟨f, parents, hf, hparents, hlength, rfl⟩
    exact ⟨f, hf, _, ⟨parents, hparents, hlength, rfl⟩, rfl⟩

theorem exists_column_iff {id : Int64} :
    (∃ c, lexicon.column id = .ok c) ↔ lexicon.Resolves id := by
  simp only [column_eq_ok_iff]
  constructor
  · rintro ⟨_, f, parents, hf, hparents, hlength, -⟩
    exact ⟨f, parents, hf, hparents, hlength⟩
  · rintro ⟨f, parents, hf, hparents, hlength⟩
    exact ⟨_, f, parents, hf, hparents, hlength, rfl⟩

/-- Following links from one parent link leads past fields, nearest first, to another link. -/
inductive Climbs (lexicon : Lexicon) : Option Int64 → List CatalogField → Option Int64 → Prop
  | stay (link : Option Int64) : Climbs lexicon link [] link
  | pass {id : Int64} {f : CatalogField} {passed : List CatalogField} {link : Option Int64} :
      lexicon.catalog id = some f → Climbs lexicon f.parentId passed link →
        Climbs lexicon (some id) (f :: passed) link

/-- The links from here lead into a circle. -/
def Circles (lexicon : Lexicon) (link : Option Int64) : Prop :=
  ∃ way round id, lexicon.Climbs link way (some id) ∧ lexicon.Climbs (some id) round (some id) ∧
    round ≠ []

theorem Circles.next {link : Option Int64} (h : lexicon.Circles link) :
    ∃ id f, link = some id ∧ lexicon.catalog id = some f ∧ lexicon.Circles f.parentId := by
  obtain ⟨way, round, id, hway, hround, hne⟩ := h
  cases hway with
  | pass hf hrest => exact ⟨_, _, rfl, hf, _, round, id, hrest, hround, hne⟩
  | stay =>
    cases hround with
    | stay => exact absurd rfl hne
    | @pass _ f round _ hf hrest =>
      exact ⟨id, f, rfl, hf, round, f :: round, id, hrest, .pass hf hrest, hne⟩

/-- Why a field has no column: the field that is named for it, and the error. -/
inductive Blocked (lexicon : Lexicon) (id : Int64) : Int64 → Unresolved → Prop
  | missing : lexicon.catalog id = none → Blocked lexicon id id (.field id)
  | dangling {f : CatalogField} {parents : List CatalogField} {parent : Int64} :
      lexicon.catalog id = some f → lexicon.Climbs f.parentId parents (some parent) →
        parents.length < maxParents → lexicon.catalog parent = none →
          Blocked lexicon id parent (.field parent)
  | tooLong {f : CatalogField} {parents : List CatalogField} {parent : Int64} :
      lexicon.catalog id = some f → lexicon.Climbs f.parentId parents (some parent) →
        parents.length = maxParents → Blocked lexicon id id (.parentChain id maxParents)

theorem Blocked.reference {id named : Int64} {u : Unresolved} (h : lexicon.Blocked id named u) :
    u.reference = "field " ++ toString named := by
  cases h <;> rfl

def nested : Lexicon where
  catalog id := some {
    id, name := "part", displayName := "Part", baseType := .structured
    parentId := if id = 0 then none else some (id - 1) }
  humanizer := id

example : (nested.column 32).toOption.isSome ∧
    nested.column 33 = .error (.unresolved (.parentChain 33 32)) := by decide +kernel

end ResultSchema.Lexicon
