import ResultSchema.Column.Ident
import ResultSchema.Column.Label
import ResultSchema.Catalog.Humanizer
import ResultSchema.Resolve.Error
import ResultSchema.Stage.Basic

/-! # Field references in a stage

A scope holds what the references of one stage are resolved against. The columns of other
stages are answers in a monad, so the same rules serve plain and remembered resolution.
-/

namespace ResultSchema

/-- What is known outside the query. -/
structure Lexicon where
  catalog : Catalog
  humanizer : Humanizer

namespace Lexicon

def field (lexicon : Lexicon) (id : Int64) : Except SchemaError CatalogField :=
  match lexicon.catalog id with
  | some f => .ok f
  | none => .error (.unresolved (.field id))

def maxParents : Nat := 32

section

variable {m : Type → Type} [Monad m] [MonadExceptOf SchemaError m]

/-- A name with that of the parent field in front, if there is one. The names further out are put
there by `outer`, unless no more parents are followed. -/
def parentedBy (fieldOf : Int64 → m CatalogField) (id : Int64)
    (outer : Option (Option Int64 → String → m String)) : Option Int64 → String → m String
  | none, name => pure name
  | some parent, name => match outer with
    | none => throw (.unresolved (.parentChain id maxParents))
    | some outer => do
      let f ← fieldOf parent
      outer f.parentId (f.name ++ "." ++ name)

def columnBy (fieldOf : Int64 → m CatalogField) (nameOf : CatalogField → m String) (id : Int64) :
    m Column := do
  let f ← fieldOf id
  let name ← nameOf f
  pure { Column.ofField f with name }

end

/-- A name with the names of the parent fields in front, outermost first. -/
def parentedName (lexicon : Lexicon) (id : Int64) :
    Nat → Option Int64 → String → Except SchemaError String
  | 0 => parentedBy lexicon.field id none
  | left + 1 => parentedBy lexicon.field id (some (parentedName lexicon id left))

/-- Names are put in front until a field has no parent or no more parents are followed. -/
@[elab_as_elim]
theorem parentedName_induction {P : Nat → Option Int64 → String → Prop}
    (outermost : ∀ left name, P left none name) (cut : ∀ parent name, P 0 (some parent) name)
    (nested : ∀ left parent name,
      (∀ f : CatalogField, P left f.parentId (f.name ++ "." ++ name)) →
        P (left + 1) (some parent) name)
    (left : Nat) (link : Option Int64) (name : String) : P left link name := by
  induction left generalizing link name with
  | zero =>
    cases link with
    | none => exact outermost 0 name
    | some parent => exact cut parent name
  | succ left ih =>
    cases link with
    | none => exact outermost (left + 1) name
    | some parent => exact nested left parent name fun f => ih f.parentId _

def column (lexicon : Lexicon) (id : Int64) : Except SchemaError Column :=
  columnBy lexicon.field (fun f => lexicon.parentedName id maxParents f.parentId f.name) id

/-- The label under which a foreign key qualifies the columns behind it. -/
def keyLabel (lexicon : Lexicon) (fk : Int64) : Except SchemaError String := do
  let f ← lexicon.field fk
  pure (Label.withoutId f.displayName)

end Lexicon

namespace Column

/-- The column under a reference that may hint its type and group it. -/
def referredBy (c : Column) (f : FieldRef) : Column :=
  { c with
    fieldRef := some (.field f.withoutNamespaced)
    baseType := if c.baseType.isWildcard then f.options.baseType.getD c.baseType else c.baseType
    options := c.options.union f.options.namespaced
    binning := f.options.binning.or c.binning
    unit := f.options.temporalUnit.or c.unit }

/-- The ident under a wrapping ident; it stays as it is if either is missing. -/
def wrapIdent (wrap : String → String → String) (outer : Option String) (c : Column) : Column :=
  match outer, c.ident with
  | some outer, some ident => { c with ident := some (wrap outer ident) }
  | _, _ => c

/-- The column as a join qualifies it; `wrapped` says whether the join takes part in the
ident. -/
def qualifiedBy (join : Join Stage) (wrapped : Bool) (qualifier : String) (c : Column) : Column :=
  let c := { c with
    sourceAlias := some join.joinAlias
    displayName := Label.qualified qualifier c.displayName }
  let c := if wrapped then c.wrapIdent Ident.joined join.ident else c
  match join.fkFieldId with
  | none => c
  | some fk => { c with
      fkFieldId := some fk
      fieldRef := c.fieldRef.map (·.mapOptions fun o =>
        { o with joinAlias := none, sourceField := some fk }) }

/-- The column taken through a declared join. -/
def throughJoin (lexicon : Lexicon) (join : Join Stage) (f : FieldRef) (wrapped : Bool)
    (c : Column) : Except SchemaError Column := do
  let qualifier ← match join.fkFieldId.or f.options.sourceField with
    | some fk => lexicon.keyLabel fk
    | none => pure join.joinAlias
  pure (c.qualifiedBy join wrapped qualifier)

/-- The column taken through a foreign key for which no join is declared. -/
def throughKey (lexicon : Lexicon) (fk : Int64) (c : Column) : Except SchemaError Column := do
  let key ← lexicon.field fk
  let c := c.wrapIdent Ident.implicitlyJoined key.ident
  pure { c with
    fkFieldId := some fk
    displayName := Label.qualified (Label.withoutId key.displayName) c.displayName }

def withoutJoinAlias (c : Column) : Column :=
  { c with fieldRef := c.fieldRef.map (·.mapOptions fun o => { o with joinAlias := none }) }

/-- The column as another stage sees it, without its provenance there. -/
def withoutProvenance (c : Column) : Column :=
  { c with fieldRef := none, source := none, aggregationIndex := none }

end Column

/-- A join that can be named from a stage, with the columns of the joined stage. -/
structure ScopedJoin (m : Type → Type) where
  join : Join Stage
  columns : m (List Column)

/-- What the references of one stage are resolved against. -/
structure Scope (m : Type → Type) where
  lexicon : Lexicon
  stage : Stage
  /-- The columns of the source stage, if there is one. -/
  source : Option (m (List Column))
  /-- The joins of the stage, then those of its source stage and so on. -/
  joins : List (ScopedJoin m)

namespace Scope

variable {m : Type → Type}

def join (scope : Scope m) (joinAlias : String) : Except SchemaError (ScopedJoin m) :=
  match scope.joins.find? (·.join.joinAlias == joinAlias) with
  | some j => .ok j
  | none => .error (.unresolved (.join joinAlias (scope.joins.map (·.join.joinAlias))))

variable [Monad m] [MonadExceptOf SchemaError m]

/-- The column that a stage gave a name, looked for in the joined stage or in the source. -/
def findNamed (scope : Scope m) (join : Option (ScopedJoin m)) (name : String) :
    m (Option Column) :=
  let pick (columns : List Column) : Option Column := columns.find? (·.name == name)
  match join with
  | some j => pick <$> j.columns
  | none => match pick scope.stage.metadata with
    | some c => pure (some c)
    | none => match scope.source with
      | some columns => pick <$> columns
      | none => pure none

/-- The found column as another stage sees it; an unknown name makes a column of unknown type. -/
def seen (scope : Scope m) (name : String) : Option Column → Column
  | some c => c.withoutProvenance
  | none => { name, displayName := scope.lexicon.humanizer name }

def named (scope : Scope m) (join : Option (ScopedJoin m)) (name : String) : m Column :=
  scope.seen name <$> scope.findNamed join name

/-- The found column as seen through its join or foreign key. A saved query hides the joins
inside it. -/
def place (scope : Scope m) (join : Option (Join Stage)) (f : FieldRef) (c : Column) :
    Except SchemaError Column := do
  let declared := (join.map fun j => scope.stage.declaresJoin j.joinAlias).getD false
  let c ← match join, f.options.sourceField with
    | some j, _ =>
      let byId := match f.id with
        | .id _ => true
        | .name _ => false
      c.throughJoin scope.lexicon j f (declared || byId)
    | none, some fk => c.throughKey scope.lexicon fk
    | none, none => pure c
  pure (if scope.stage.card.isSome && !declared then c.withoutJoinAlias else c)

def joinOf (scope : Scope m) (f : FieldRef) : m (Option (ScopedJoin m)) :=
  match f.options.joinAlias with
  | some joinAlias => some <$> MonadExcept.ofExcept (scope.join joinAlias)
  | none => pure none

def targetBy (scope : Scope m) (ofId : Int64 → m Column) (join : Option (ScopedJoin m)) :
    FieldId → m Column
  | .id id => ofId id
  | .name name => scope.named join name

def fieldBy (scope : Scope m) (target : Option (ScopedJoin m) → FieldId → m Column)
    (f : FieldRef) : m Column := do
  let join ← scope.joinOf f
  let c ← target join f.id
  MonadExcept.ofExcept (scope.place (join.map (·.join)) f (c.referredBy f))

/-- The column that is meant, before the reference groups it. -/
def target (scope : Scope m) : Option (ScopedJoin m) → FieldId → m Column :=
  scope.targetBy fun id => MonadExcept.ofExcept (scope.lexicon.column id)

def field (scope : Scope m) : FieldRef → m Column := scope.fieldBy scope.target

end Scope

end ResultSchema
