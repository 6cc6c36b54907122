import ResultSchema.Proofs.Result.Merge
import Mathlib.Data.List.Nodup
import Mathlib.Data.List.Perm.Basic

/-! # Declaring computed columns

A column that is declared as it is stays as it is. Declaring the computed columns in any order
therefore changes none of them, unless two reach a field by the same route but for the foreign
key: the one that is declared first is then laid over both.
-/

namespace ResultSchema

namespace Column

/-- The foreign key through which the reference of a column reaches its field. -/
def sourceField? (c : Column) : Option Int64 :=
  (c.fieldRef.bind ColumnRef.field?).bind (·.options.sourceField)

/-- All of a reference that says which column is meant: for a field its id or name, the join
alias and the foreign key. -/
def route (c : Column) : RefKey × Option Int64 := (c.key, c.sourceField?)

theorem mergedIdent_self (c : Column) : c.mergedIdent c.ident = c.ident := by
  unfold mergedIdent
  split
  · rfl
  · exact Option.or_self

@[simp] theorem withDeclared_self (c : Column) : c.withDeclared c = c := by
  unfold withDeclared
  simp only [Option.or_self, ite_self, OrderedMap.union_self, mergedIdent_self]
  -- The unit is the same whether or not it may be taken from the declared column.
  split <;> rfl

end Column

namespace Merge

variable {columns declaredColumns : List Column}

theorem declared_eq_self_iff (hlen : declaredColumns.length = columns.length) :
    declared columns declaredColumns = columns ↔
      ∀ c ∈ columns, ∀ d, declaredColumns.find? (·.key == c.key) = some d → c.withDeclared d = c := by
  rw [declared_of_length_eq hlen]
  nth_rewrite 2 [← List.map_id columns]
  rw [List.map_inj_left]
  refine forall₂_congr fun c _ => ?_
  cases declaredColumns.find? (·.key == c.key) with
  | none => simp
  | some d => simp

/-- Where no two columns have the same route, declaring them in any order changes nothing
exactly when columns whose routes differ in the foreign key only take nothing from each other. -/
theorem declared_perm_eq_iff (hroutes : (columns.map Column.route).Nodup) :
    (∀ declaredColumns, declaredColumns.Perm columns → declared columns declaredColumns = columns) ↔
      ∀ c ∈ columns, ∀ d ∈ columns, c.key = d.key → c.sourceField? ≠ d.sourceField? →
        c.withDeclared d = c := by
  constructor
  · intro h c hc d hd hkey _
    -- Declared first, `d` is the column that `c` is paired with.
    have hperm : (d :: columns.erase d).Perm columns := (List.perm_cons_erase hd).symm
    have hfirst : (d :: columns.erase d).find? (·.key == c.key) = some d :=
      List.find?_cons_of_pos (beq_iff_eq.mpr hkey.symm)
    exact (declared_eq_self_iff hperm.length_eq).mp (h _ hperm) c hc d hfirst
  · intro h declaredColumns hperm
    refine (declared_eq_self_iff hperm.length_eq).mpr fun c hc d hfound => ?_
    have hd : d ∈ columns := hperm.subset (List.mem_of_find?_eq_some hfound)
    have hkey : d.key = c.key := by simpa using List.find?_some hfound
    by_cases hsource : c.sourceField? = d.sourceField?
    · have heq : c = d := List.inj_on_of_nodup_map hroutes hc hd (Prod.ext hkey.symm hsource)
      rw [← heq]
      exact c.withDeclared_self
    · exact h c hc d hd hkey.symm hsource

def personName (fk : Int64) (label : String) : Column where
  name := label
  displayName := label
  baseType := .text
  source := some .fields
  fieldRef := some (.field ⟨.id 2, { sourceField := some fk }⟩)
  fkFieldId := some fk

def joinedName : Column where
  name := "name"
  displayName := "P → Name"
  baseType := .text
  source := some .fields
  fieldRef := some (.field ⟨.id 2, { joinAlias := some "P" }⟩)
  sourceAlias := some "P"

theorem declared_perm_eq_iff_of_joinedName :
    declared [personName 1 "Buyer", joinedName] [joinedName, personName 1 "Buyer"] =
      [personName 1 "Buyer", joinedName] :=
  (declared_perm_eq_iff (by decide)).mpr (by decide) _ (.swap _ _ _)

def people : List Column := [personName 1 "Buyer", personName 3 "Seller"]

/-- Declared as they are, the two people become one. -/
theorem declared_mixes_keys :
    (∀ c ∈ people, c.fieldRef.isSome) ∧ (people.map Column.route).Nodup ∧
      declared people people ≠ people ∧
      (declared people people).map (fun c => (c.displayName, c.fkFieldId)) =
        [("Buyer", some 1), ("Buyer", some 1)] := by
  decide

end Merge

end ResultSchema
