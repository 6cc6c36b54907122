import ResultSchema.Text.Alphanumeric
import ResultSchema.Text.Uppercase

/-! # Display names of raw identifiers

Identifiers are split at separators and at lower-to-upper boundaries, and every word is
capitalised. Identifiers without letters and digits stay as they are.
-/

namespace ResultSchema

abbrev Humanizer := String → String

namespace Humanizer

def isSeparator (c : Char) : Bool := c == '_' || c == '-' || Text.isBlank c

/-- A blank put between a lower-case letter or digit and the upper-case letter after it. -/
def spaceBoundaries : List Char → List Char
  | a :: b :: rest =>
    if (a.isLower || a.isDigit) && b.isUpper then a :: ' ' :: spaceBoundaries (b :: rest)
    else a :: spaceBoundaries (b :: rest)
  | s => s

/-- The word that the characters begin with, and the words after it. -/
def splitWords (s : List Char) : List Char × List (List Char) :=
  s.foldr (fun c (word, words) =>
    if isSeparator c then ([], if word.isEmpty then words else word :: words)
    else (c :: word, words)) ([], [])

/-- The maximal runs of characters that are no separators. -/
def words (s : List Char) : List (List Char) :=
  let (word, words) := splitWords s
  if word.isEmpty then words else word :: words

def isId : List Char → Bool
  | [i, d] => (i == 'i' || i == 'I') && (d == 'd' || d == 'D')
  | _ => false

def capitalize (word : List Char) : List Char :=
  if isId word then ['I', 'D']
  else match word with
    | [] => []
    | c :: rest => Text.upper c ++ rest

/-- The display name of an identifier: `created_at` is shown as `Created At`. -/
def standard : Humanizer := fun raw =>
  let chars := raw.toList
  if chars.any Text.isAlphanumeric then
    String.ofList ([' '].intercalate ((words (spaceBoundaries chars)).map capitalize))
  else raw

def ofTable (table : List (String × String)) : Humanizer := fun raw =>
  (table.lookup raw).getD raw

end Humanizer

end ResultSchema
