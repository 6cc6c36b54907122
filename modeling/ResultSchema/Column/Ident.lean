/-! # Idents

An ident is a text that stays with a column. Joins and models wrap it at the front, the
outermost wrapping first, and each wrapping can be taken off again.
-/

namespace ResultSchema.Ident

def dropFront? : List Char → List Char → Option (List Char)
  | [], text => some text
  | _ :: _, [] => none
  | c :: front, d :: text => if c = d then dropFront? front text else none

theorem dropFront?_append (front text : List Char) : dropFront? front (front ++ text) = some text := by
  induction front with
  | nil => cases text <;> rfl
  | cons c front ih => simp [dropFront?, ih]

def strip? (front text : String) : Option String :=
  (dropFront? front.toList text.toList).map String.ofList

theorem strip?_append (front text : String) : strip? front (front ++ text) = some text := by
  simp [strip?, String.toList_append, dropFront?_append]

def joinFront (joinIdent : String) : String := "join__" ++ joinIdent ++ "__"

def implicitFront (fkIdent : String) : String := "implicit_via__" ++ fkIdent ++ "__->__"

def modelFront (entityId : String) : String := "model[" ++ entityId ++ "]__"

/-- The ident of a column taken through an explicit join. -/
def joined (joinIdent ident : String) : String := joinFront joinIdent ++ ident

/-- The ident of a column taken through a foreign key. -/
def implicitlyJoined (fkIdent ident : String) : String := implicitFront fkIdent ++ ident

/-- The ident of a column of a model; an ident of that model stays as it is. -/
def modelScoped (entityId ident : String) : String :=
  if (strip? (modelFront entityId) ident).isSome then ident else modelFront entityId ++ ident

/-- The ident of a column that a native query returns. -/
def native (columnName : String) : String := "native__" ++ columnName

def stripJoin? (joinIdent ident : String) : Option String := strip? (joinFront joinIdent) ident

def stripImplicit? (fkIdent ident : String) : Option String := strip? (implicitFront fkIdent) ident

def stripModel? (entityId ident : String) : Option String := strip? (modelFront entityId) ident

theorem isSome_stripModel?_modelScoped (entityId ident : String) :
    (stripModel? entityId (modelScoped entityId ident)).isSome := by
  unfold stripModel? modelScoped
  split
  · assumption
  · rw [strip?_append]
    rfl

end ResultSchema.Ident
