import ResultSchema.Json.Text

/-! # Places inside a document

A location is a starting path and the steps from there. Following the steps of an object
or array leads to the value they point at.
-/

namespace ResultSchema

inductive Step
  | key (name : String)
  | index (i : Nat)
  deriving DecidableEq, Repr

namespace Step

def text : Step → String
  | key name => name
  | index i => toString i

/-- One step from a value to a value it holds. -/
inductive Leads : Step → Json → Json → Prop
  | key {name : String} {entries : List (String × Json)} {v : Json} :
      (name, v) ∈ entries → Leads (key name) (.obj entries) v
  | index {i : Nat} {items : List Json} {v : Json} :
      items[i]? = some v → Leads (index i) (.arr items) v

end Step

structure Location where
  base : String
  steps : List Step := []
  deriving DecidableEq, Repr

namespace Location

def key (l : Location) (name : String) : Location := { l with steps := l.steps ++ [.key name] }

def index (l : Location) (i : Nat) : Location := { l with steps := l.steps ++ [.index i] }

def text (l : Location) : String := l.base ++ String.join (l.steps.map fun s => "/" ++ s.text)

end Location

end ResultSchema
