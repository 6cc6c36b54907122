import ResultSchema.Json.Reader
import ResultSchema.Stage.Build
import ResultSchema.Stage.Reader
import ResultSchema.Result.Annotate
import ResultSchema.Proofs.Names.Distinct
import ResultSchema.Proofs.Column.Extra
import ResultSchema.Proofs.Stage.Declared
import ResultSchema.Proofs.Stage.Limit
import ResultSchema.Proofs.Resolve.Memo
import ResultSchema.Proofs.Resolve.Reselected
import ResultSchema.Proofs.Resolve.Emitted
import ResultSchema.Proofs.Resolve.Extra
import ResultSchema.Proofs.Resolve.Failures
import ResultSchema.Proofs.Result.Width
import ResultSchema.Proofs.Result.HiddenJoins
import ResultSchema.Proofs.Result.Redeclared
import ResultSchema.Proofs.Result.ModelScope
import ResultSchema.Proofs.Result.Selecting
import ResultSchema.Proofs.Result.Count
import ResultSchema.Proofs.Result.Extra
import ResultSchema.Proofs.Result.Exposed
import ResultSchema.Proofs.Result.Failures
import ResultSchema.Proofs.Result.Modes
import ResultSchema.Proofs.Result.Limit
import ResultSchema.Proofs.Json.Excerpt
import ResultSchema.Proofs.Json.Faults
import ResultSchema.Proofs.Clause.Faults
import ResultSchema.Proofs.Stage.Faults
import ResultSchema.Proofs.Decimal.Finite
import ResultSchema.Proofs.Reference.RoundTrip
import ResultSchema.Proofs.Reference.Grammar
import ResultSchema.Proofs.Json.Numbers
import ResultSchema.Proofs.Column.RoundTrip
import ResultSchema.Proofs.Result.Structure
import ResultSchema.Proofs.Result.Simulation
import ResultSchema.Proofs.Result.Lexicon
import ResultSchema.Proofs.Stage.Rearranged
import ResultSchema.Proofs.Resolve.Rearranged
import ResultSchema.Proofs.Result.Rearranged
import ResultSchema.Proofs.Result.Wrapped
import ResultSchema.Proofs.Resolve.Stacked
import ResultSchema.Proofs.Resolve.Joined
import ResultSchema.Proofs.Result.Stacked
import ResultSchema.Proofs.Resolve.Termination
import ResultSchema.Proofs.Clause.Deciding
import ResultSchema.Proofs.Clause.Grammar
import ResultSchema.Proofs.Resolve.Expanding
import ResultSchema.Proofs.Names.Numbered
import ResultSchema.Proofs.Resolve.Facts
import ResultSchema.Proofs.Resolve.Shifted
import ResultSchema.Proofs.Result.Precedence
import ResultSchema.Proofs.Result.Idempotent
import ResultSchema.Proofs.Resolve.Parents
import ResultSchema.Proofs.Resolve.Sight
import ResultSchema.Proofs.Resolve.Shape
import ResultSchema.Proofs.Result.NativeColumns
import ResultSchema.Proofs.Result.Pairing
import ResultSchema.Proofs.Catalog.DisplayNames
import ResultSchema.Proofs.Column.Wrappers
