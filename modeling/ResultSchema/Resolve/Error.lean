import ResultSchema.Json.ReadError

/-! # Errors of computing a schema

Each error is a cause with the facts of the case; the wording is given once.
-/

namespace ResultSchema

/-- A reference that nothing explains. -/
inductive Unresolved
  | field (id : Int64)
  | parentChain (id : Int64) (limit : Nat)
  | join (joinAlias : String) (visible : List String)
  | expression (name : String)
  | aggregation (index declared : Nat)
  | unselectable (clause : String)
  deriving DecidableEq, Repr

namespace Unresolved

def reference : Unresolved → String
  | field id => "field " ++ toString id
  | parentChain id _ => "field " ++ toString id
  | join joinAlias _ => "join alias \"" ++ joinAlias ++ "\""
  | expression name => "expression \"" ++ name ++ "\""
  | aggregation index _ => "aggregation " ++ toString index
  | unselectable clause => clause

def reason : Unresolved → String
  | field id => "field " ++ toString id ++ " not found in catalog"
  | parentChain _ limit => "parent chain longer than " ++ toString limit ++ " fields"
  | join _ visible =>
    "no such join; visible aliases: [" ++ String.intercalate ", " visible ++ "]"
  | expression _ => "no expression with this name in the stage"
  | aggregation _ declared => "stage declares " ++ toString declared ++ " aggregations"
  | unselectable _ => "only field, expression and aggregation references can be selected"

end Unresolved

/-- A fact that the metadata of a model lacks. -/
inductive Inconsistency
  | modelWithoutEntity
  | columnWithoutIdent (name : String)
  deriving DecidableEq, Repr

def Inconsistency.text : Inconsistency → String
  | modelWithoutEntity => "model stage has no entity id"
  | columnWithoutIdent name => "column `" ++ name ++ "` has no ident"

structure WidthMismatch where
  expectedCount : Nat
  actualCount : Nat
  expectedColumns : List String
  actualColumns : List String
  deriving DecidableEq, Repr

inductive SchemaError
  | unresolved (u : Unresolved)
  | mismatch (w : WidthMismatch)
  | unknownStageKind (kind : String)
  | inconsistent (i : Inconsistency)
  | nestingTooDeep (depth max : Nat)
  | unreadable (e : ReadError)
  | execution (text : String)
  deriving DecidableEq

namespace SchemaError

def message : SchemaError → String
  | unresolved u => "cannot resolve " ++ u.reference ++ ": " ++ u.reason
  | mismatch w =>
    "mismatched number of columns in query and results: expected " ++ toString w.expectedCount
      ++ ", got " ++ toString w.actualCount
  | unknownStageKind kind => "unknown query kind `" ++ kind ++ "`"
  | inconsistent i => "metadata consistency check failed: " ++ i.text
  | nestingTooDeep depth max =>
    "stage nesting depth " ++ toString depth ++ " exceeds the limit of " ++ toString max
  | unreadable e => e.display
  | execution text => "query execution failed: " ++ text

/-- A fault of reading counts as an error of its own kind where there is one. -/
def ofReadError (e : ReadError) : SchemaError :=
  match e.fault with
  | .unknownStageKind kind => unknownStageKind kind
  | .tooDeep depth max => nestingTooDeep depth max
  | _ => unreadable e

end SchemaError

end ResultSchema
