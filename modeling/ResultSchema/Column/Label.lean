import ResultSchema.Text.Blank

/-! # Display labels of joined columns

A column reached through a join is labelled with a qualifier. A foreign key qualifies by
its own label without a final "ID".
-/

namespace ResultSchema.Label

/-- The characters of a label without a final `id` word and the blanks before it. -/
def dropId (label : List Char) : List Char :=
  match label.reverse with
  | d :: i :: blank :: rest =>
    if (d == 'd' || d == 'D') && (i == 'i' || i == 'I') && Text.isBlank blank then
      (rest.dropWhile Text.isBlank).reverse
    else label
  | _ => label

def withoutId (label : String) : String := String.ofList (dropId label.toList)

def qualified (qualifier label : String) : String := qualifier ++ " → " ++ label

theorem qualified_inj {qualifier a b : String} :
    qualified qualifier a = qualified qualifier b ↔ a = b := String.append_right_inj _

end ResultSchema.Label
