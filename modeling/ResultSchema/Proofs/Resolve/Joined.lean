import ResultSchema.Proofs.Resolve.Selected
import ResultSchema.Stage.Build

/-! # Columns taken through joins in joins

A stage may list a single column of a stage that it joins, which lists a single column of a stage
that it joins in turn. Each join on the way puts its alias in front of the label and its ident in
front of the ident, once, so the idents of the joins come off again from the outermost inwards.
-/

namespace ResultSchema

structure Hop where
  joinAlias : String
  ident : String

namespace Hop

def join (hop : Hop) (joined : Stage) (condition : Option Clause) : Join Stage where
  joinAlias := hop.joinAlias
  stage := joined
  condition
  ident := some hop.ident

variable (hop : Hop) (hops : List Hop)

def label (hops : List Hop) (label : String) : String :=
  String.intercalate " → " (hops.map (·.joinAlias) ++ [label])

def wrap (hops : List Hop) (ident : String) : String :=
  String.join (hops.map fun hop => "join__" ++ hop.ident ++ "__") ++ ident

/-- Takes the idents of the joins off again, in their order. -/
def strip? (hops : List Hop) (ident : String) : Option String :=
  hops.foldlM (fun ident hop => Ident.stripJoin? hop.ident ident) ident

theorem label_nil (text : String) : label [] text = text := by
  simp [label]

theorem label_cons (text : String) :
    label (hop :: hops) text = Label.qualified hop.joinAlias (label hops text) := by
  have hne : hops.map (·.joinAlias) ++ [text] ≠ [] := by simp
  exact String.intercalate_cons_of_ne_nil hne

theorem wrap_nil (ident : String) : wrap [] ident = ident := by
  simp [wrap]

theorem wrap_cons (ident : String) :
    wrap (hop :: hops) ident = Ident.joined hop.ident (wrap hops ident) := by
  simp [wrap, Ident.joined, Ident.joinFront, String.append_assoc]

theorem strip?_wrap (ident : String) : strip? hops (wrap hops ident) = some ident := by
  induction hops with
  | nil => rw [wrap_nil]; rfl
  | cons hop hops ih =>
    have hfront : Ident.stripJoin? hop.ident (wrap (hop :: hops) ident) = some (wrap hops ident) := by
      rw [wrap_cons]
      exact Ident.strip?_append _ _
    unfold strip? at ih ⊢
    rw [List.foldlM_cons, hfront]
    exact ih

end Hop

namespace Column

/-- The column as a stage lists it through an explicit join. -/
def listedThrough (hop : Hop) (id : FieldId) (c : Column) : Column :=
  { c with
    displayName := Label.qualified hop.joinAlias c.displayName
    ident := c.ident.map (Ident.joined hop.ident)
    sourceAlias := some hop.joinAlias
    fieldRef := some (.field ⟨id, { joinAlias := some hop.joinAlias }⟩)
    source := some .fields }

/-- A reference with nothing but the alias changes the reference of the column only, and the join
wraps label and ident. -/
theorem qualifiedBy_hop (hop : Hop) (joined : Stage) (condition : Option Clause) (id : FieldId)
    (c : Column) : (c.referredBy ⟨id, { joinAlias := some hop.joinAlias }⟩).qualifiedBy
        (hop.join joined condition) true hop.joinAlias =
      { c.listedThrough hop id with source := c.source } := by
  have hreferred : c.referredBy ⟨id, { joinAlias := some hop.joinAlias }⟩ =
      { c with fieldRef := some (.field ⟨id, { joinAlias := some hop.joinAlias }⟩) } := by
    calc c.referredBy ⟨id, { joinAlias := some hop.joinAlias }⟩
      _ = { c with
            fieldRef := some (.field ⟨id, { joinAlias := some hop.joinAlias }⟩)
            baseType := if c.baseType.isWildcard then c.baseType else c.baseType } := rfl
      _ = _ := by rw [ite_self]
  rw [hreferred]
  unfold qualifiedBy wrapIdent listedThrough
  cases h : c.ident <;> simp [Hop.join]

end Column

namespace Stage

/-- The stage lists one column only, which it takes through an explicit join of its own. -/
structure ListsThrough (s : Stage) (hop : Hop) (joined : Stage) (id : FieldId) : Prop where
  breakouts : s.breakouts = []
  aggregations : s.aggregations = []
  fields : s.fields = [.field ⟨id, { joinAlias := some hop.joinAlias }⟩]
  join : ∃ condition,
    s.joins.find? (·.joinAlias == hop.joinAlias) = some (hop.join joined condition)

/-- The stage lists a column by name through joins in joins; the innermost stage lists it by id. -/
inductive JoinsTo (id : Int64) (name : String) : List Hop → Stage → Prop
  | inner {s joined : Stage} {hop : Hop} : s.ListsThrough hop joined (.id id) →
      JoinsTo id name [hop] s
  | outer {s joined : Stage} {hop : Hop} {hops : List Hop} : JoinsTo id name hops joined →
      s.ListsThrough hop joined (.name name) → JoinsTo id name (hop :: hops) s

variable {lexicon : Lexicon} {s joined : Stage} {hop : Hop} {hops : List Hop} {c : Column}
variable {id : Int64} {ref : FieldId} {name ident : String} {f : CatalogField}

theorem place_hop {condition : Option Clause} (h : s.declaresJoin hop.joinAlias) :
    (s.scope lexicon).place (some (hop.join joined condition))
        ⟨ref, { joinAlias := some hop.joinAlias }⟩ c =
      .ok (c.qualifiedBy (hop.join joined condition) true hop.joinAlias) := by
  have hdeclared : (s.scope lexicon).stage.declaresJoin (hop.join joined condition).joinAlias =
      true := by rwa [scope_stage]
  unfold Scope.place
  simp only [Option.map_some, Option.getD_some, hdeclared, Bool.true_or, Bool.not_true,
    Bool.and_false, Bool.false_eq_true, if_false]
  rfl

theorem field_of_listsThrough (h : s.ListsThrough hop joined ref)
    (hc : ∀ join, (s.scope lexicon).target (some ⟨join, joined.visible lexicon⟩) ref = .ok c) :
    (s.scope lexicon).field ⟨ref, { joinAlias := some hop.joinAlias }⟩ =
      .ok { c.listedThrough hop ref with source := c.source } := by
  obtain ⟨condition, hfind⟩ := h.join
  have hdeclared : s.declaresJoin hop.joinAlias :=
    List.any_eq_true.mpr ⟨_, List.mem_of_find?_eq_some hfind, beq_self_eq_true _⟩
  have hjoin : s.join? hop.joinAlias = some (hop.join joined condition) := by
    unfold join?
    rw [joinsInSight_eq, List.find?_append, hfind]
    rfl
  have hjoinOf : (s.scope lexicon).joinOf ⟨ref, { joinAlias := some hop.joinAlias }⟩ =
      .ok (some ⟨hop.join joined condition, joined.visible lexicon⟩) :=
    congrArg (some <$> MonadExcept.ofExcept ·) (scope_join_eq_ok_iff.mpr ⟨_, hjoin, rfl⟩)
  refine bind_eq_ok_iff.mpr ⟨_, hjoinOf, bind_eq_ok_iff.mpr ⟨c, hc _, ?_⟩⟩
  rw [ofExcept_self, ← Column.qualifiedBy_hop hop joined condition ref c]
  exact place_hop hdeclared

/-- The one column that is listed, once it is known what the reference means behind the join. -/
theorem columns_of_listsThrough (h : s.ListsThrough hop joined ref)
    (hc : ∀ join, (s.scope lexicon).target (some ⟨join, joined.visible lexicon⟩) ref = .ok c) :
    s.columns lexicon = .ok [c.listedThrough hop ref] := by
  refine Scope.columns_eq_ok_iff.mpr ⟨[], [], [c.listedThrough hop ref], ?_, ?_, ?_,
    dedupe_of_nodup (by simp)⟩
  · rw [scope_stage, h.breakouts]
    rfl
  · rw [scope_stage, h.aggregations]
    rfl
  · have hlisted : (s.scope lexicon).listed (.field ⟨ref, { joinAlias := some hop.joinAlias }⟩) =
        .ok (c.listedThrough hop ref) :=
      bind_eq_ok_iff.mpr ⟨_, field_of_listsThrough h hc, rfl⟩
    rw [scope_stage, h.fields, List.mapM_cons, hlisted]
    rfl

theorem target_id (join : Option (ScopedJoin (Except SchemaError)))
    (h : lexicon.column id = .ok c) : (s.scope lexicon).target join (.id id) = .ok c := by
  calc (s.scope lexicon).target join (.id id)
    _ = (s.scope lexicon).lexicon.column id := ofExcept_self _
    _ = .ok c := by rw [scope_lexicon, h]

theorem target_name (join : Join Stage) (h : joined.visible lexicon = .ok [c]) :
    (s.scope lexicon).target (some ⟨join, joined.visible lexicon⟩) (.name c.name) =
      .ok c.withoutProvenance := by
  have hfound : (s.scope lexicon).findNamed (some ⟨join, joined.visible lexicon⟩) c.name =
      .ok (some c) := by
    refine map_eq_ok_iff.mpr ⟨[c], h, ?_⟩
    exact List.find?_cons_of_pos (beq_self_eq_true _)
  exact map_eq_ok_iff.mpr ⟨some c, hfound, rfl⟩

theorem ListsThrough.selects (h : s.ListsThrough hop joined ref) : s.selects := by
  simp [Stage.selects, h.fields]

theorem JoinsTo.selects (h : s.JoinsTo id name hops) : s.selects := by
  cases h with
  | inner h => exact h.selects
  | outer _ h => exact h.selects

/-- Through any number of joins in joins, a catalog field becomes a single column. Its label and
ident begin with the aliases and idents of all joins, each once and the outermost first, and taking
the idents off again gives the field's. -/
theorem columns_of_joinsTo (hf : lexicon.field id = .ok f) (hident : f.ident = some ident)
    (hname : lexicon.parentedName id Lexicon.maxParents f.parentId f.name = .ok name)
    (h : s.JoinsTo id name (hop :: hops)) :
    s.columns lexicon = .ok [{ Column.ofField f with
        name
        displayName := Hop.label (hop :: hops) f.displayName
        ident := some (Hop.wrap (hop :: hops) ident)
        sourceAlias := some hop.joinAlias
        fieldRef := some (.field ⟨if hops = [] then .id id else .name name,
          { joinAlias := some hop.joinAlias }⟩)
        source := some .fields }] ∧
      Hop.strip? (hop :: hops) (Hop.wrap (hop :: hops) ident) = some ident := by
  refine ⟨?_, Hop.strip?_wrap _ ident⟩
  -- On the joins inside the outermost one: the stage behind it lists the same name, and nothing else.
  induction hops generalizing hop s with
  | nil =>
    cases h with
    | outer hinner h => cases hinner
    | inner h =>
      have hcolumn : lexicon.column id = .ok { Column.ofField f with name } :=
        bind_eq_ok_iff.mpr ⟨f, hf, bind_eq_ok_iff.mpr ⟨name, hname, rfl⟩⟩
      have hwrapped : f.ident.map (Ident.joined hop.ident) =
          some (Ident.joined hop.ident ident) := by rw [hident, Option.map_some]
      rw [columns_of_listsThrough h fun _ => target_id _ hcolumn, Hop.label_cons, Hop.label_nil,
        Hop.wrap_cons, Hop.wrap_nil, ← hwrapped]
      rfl
  | cons next hops ih =>
    cases h with
    | outer hinner h =>
      have hvisible := (visible_of_selects hinner.selects).trans (ih hinner)
      rw [columns_of_listsThrough h fun join => target_name join hvisible, Hop.label_cons hop,
        Hop.wrap_cons hop]
      rfl

def listing (hop : Hop) (joined : Stage) (ref : FieldId) : Stage :=
  ((ofTable 1).withJoin (hop.join joined none)).withField
    (.field ⟨ref, { joinAlias := some hop.joinAlias }⟩)

theorem listing_listsThrough (hop : Hop) (joined : Stage) (ref : FieldId) :
    (listing hop joined ref).ListsThrough hop joined ref where
  breakouts := rfl
  aggregations := rfl
  fields := rfl
  join := ⟨none, List.find?_cons_of_pos (beq_self_eq_true _)⟩

def nameField : CatalogField where
  id := 2
  name := "name"
  displayName := "Name"
  baseType := .text
  parentId := some 3
  ident := some "f-name"

def personLexicon : Lexicon where
  catalog id :=
    if id = 2 then some nameField
    else if id = 3 then some { id, name := "person", displayName := "Person", baseType := .text }
    else none
  humanizer name := name

def buyer : Hop where
  joinAlias := "Buyer"
  ident := "b"

def order : Hop where
  joinAlias := "Order"
  ident := "o"

theorem columns_of_joinsTo_orderBuyer :
    (listing order (listing buyer (ofTable 4) (.id 2)) (.name "person.name")).columns
        personLexicon = .ok [{
          name := "person.name"
          displayName := "Order → Buyer → Name"
          baseType := .text
          ident := some "join__o__join__b__f-name"
          id := some 2
          sourceAlias := some "Order"
          fieldRef := some (.byName "person.name" { joinAlias := some "Order" })
          source := some .fields }] ∧
      Hop.strip? [order, buyer] "join__o__join__b__f-name" = some "f-name" := by
  have hjoins : JoinsTo 2 "person.name" [order, buyer]
      (listing order (listing buyer (ofTable 4) (.id 2)) (.name "person.name")) :=
    .outer (.inner (listing_listsThrough _ _ _)) (listing_listsThrough _ _ _)
  have hlabel : Hop.label [order, buyer] "Name" = "Order → Buyer → Name" := by decide
  have hwrap : Hop.wrap [order, buyer] "f-name" = "join__o__join__b__f-name" := by decide
  have hfield : personLexicon.field 2 = .ok nameField := rfl
  have hname : personLexicon.parentedName 2 Lexicon.maxParents nameField.parentId nameField.name =
      .ok "person.name" := by decide
  rw [← hlabel, ← hwrap]
  exact columns_of_joinsTo hfield rfl hname hjoins

/-- Through one join, the column is referred to by the id of the field and not by its name. -/
theorem fieldRef_of_joinsTo_one :
    (listing buyer (ofTable 4) (.id 2)).JoinsTo 2 "person.name" [buyer] ∧
      ∃ c, (listing buyer (ofTable 4) (.id 2)).columns personLexicon = .ok [c] ∧
        c.name = "person.name" ∧
        c.fieldRef = some (.field ⟨.id 2, { joinAlias := some "Buyer" }⟩) ∧
        ∀ options, c.fieldRef ≠ some (.byName "person.name" options) := by
  refine ⟨.inner (listing_listsThrough _ _ _), {
    name := "person.name"
    displayName := "Buyer → Name"
    baseType := .text
    ident := some "join__b__f-name"
    id := some 2
    sourceAlias := some "Buyer"
    fieldRef := some (.field ⟨.id 2, { joinAlias := some "Buyer" }⟩)
    source := some .fields }, by decide +kernel, rfl, rfl, ?_⟩
  rintro options ⟨⟩

end Stage

end ResultSchema
