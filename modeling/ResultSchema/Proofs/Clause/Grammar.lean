import ResultSchema.Clause.Reader
import ResultSchema.Proofs.Json.Reach
import ResultSchema.Proofs.Reference.Grammar

/-! # The grammar of clauses

A clause is read from a value exactly when the value stands for it: a scalar for a literal, and an
array for what its operator makes of the arguments. The arguments of a call, the branches of a case
and its default are clauses in turn, so that the tree has the form of the value. Where the value
stands does not matter.
-/

namespace ResultSchema

namespace Clause

def reserved : List String :=
  ["field", "expression", "aggregation", "interval", "value", "case", "if"]

mutual

/-- The clause that a value stands for: a scalar is a literal, and an array applies the operator
that it starts with. -/
inductive Denotes : Json → Clause → Prop
  | literal {v : Json} {l : Literal} : Literal.ofJson? v = some l → Denotes v (.literal l)
  | array {op : String} {args : List Json} {c : Clause} :
      Applies op args c → Denotes (.arr (.str op :: args)) c

/-- The clause that an operator makes of its arguments. What follows the arguments of an expression,
an aggregation, an interval, a value or a case is not looked at. -/
inductive Applies : String → List Json → Clause → Prop
  | field {id : Json} {options : Option Json} {f : FieldRef} :
      FieldId.ofJson? id = some f.id → FieldOptions.Written options f.options →
        Applies "field" (id :: options.toList) (.field f)
  | expression {name : String} {rest : List Json} {options : FieldOptions} :
      FieldOptions.Written rest.head? options →
        Applies "expression" (.str name :: rest) (.expression name options)
  | aggregation {v : Json} {rest : List Json} {index : Nat} :
      v.asNat? = some index → Applies "aggregation" (v :: rest) (.aggregation index)
  | interval {v w : Json} {rest : List Json} {amount : Int64} {unit : TemporalUnit} :
      v.asInt64? = some amount → TemporalUnit.ofJson? w = some unit →
        Applies "interval" (v :: w :: rest) (.interval amount unit)
  | value {v : Json} {rest : List Json} {c : Clause} :
      Denotes v c → Applies "value" (v :: rest) (.value c ((rest.head?.map readHint).getD {}))
  | case {op : String} {pairs rest : List Json} {branches : List (Clause × Clause)}
      {fallback : Option Clause} :
      op = "case" ∨ op = "if" → List.Forall₂ DenotesBranch pairs branches →
        Option.Rel Denotes (rest.head?.bind (·.get? "default")) fallback →
          Applies op (.arr pairs :: rest) (.case branches fallback)
  | call {op : String} {args : List Json} {cs : List Clause} :
      op ∉ reserved → List.Forall₂ Denotes args cs → Applies op args (.call op cs)

/-- The branch that a pair stands for. -/
inductive DenotesBranch : Json → Clause × Clause → Prop
  | pair {v w : Json} {condition result : Clause} :
      Denotes v condition → Denotes w result → DenotesBranch (.arr [v, w]) (condition, result)

end

/-- A value is read as the clause that it stands for, wherever it stands. -/
def Grammatical (v : Json) : Prop := ∀ loc c, read v loc = .ok c ↔ Denotes v c

section Parts

variable {v : Json} {loc : Location} {i : Nat} {fallback : Option Clause}

theorem readArgs_eq_ok_iff {args : List Json} {cs : List Clause} (h : ∀ v ∈ args, Grammatical v) :
    readArgs i args loc = .ok cs ↔ List.Forall₂ Denotes args cs := by
  induction args generalizing i cs with
  | nil => simp [readArgs, pure, Except.pure, eq_comm]
  | cons v rest ih =>
    obtain ⟨hv, hrest⟩ := List.forall_mem_cons.mp h
    rw [readArgs]
    exact cons_eq_ok_iff_forall₂ (hv _) fun _ => ih hrest

theorem readBranch_eq_ok_iff {pair : Json} {branch : Clause × Clause}
    (h : pair.Throughout Grammatical) :
    readBranch pair loc = .ok branch ↔ DenotesBranch pair branch := by
  constructor
  · intro hread
    unfold readBranch at hread
    split at hread
    · rename_i condition result
      have hcondition : Grammatical condition := (h.inside (s := .index 0) (.index rfl)).here
      have hresult : Grammatical result := (h.inside (s := .index 1) (.index rfl)).here
      obtain ⟨c, hc, hread⟩ := bind_eq_ok_iff.mp hread
      obtain ⟨d, hd, hread⟩ := bind_eq_ok_iff.mp hread
      cases hread
      exact .pair ((hcondition _ _).mp hc) ((hresult _ _).mp hd)
    · cases hread
  · intro hbranch
    cases hbranch with
    | @pair v w c d hc hd =>
      have hcondition : Grammatical v := (h.inside (s := .index 0) (.index rfl)).here
      have hresult : Grammatical w := (h.inside (s := .index 1) (.index rfl)).here
      rw [readBranch, (hcondition _ _).mpr hc, ok_bind, (hresult _ _).mpr hd]
      rfl

theorem readBranches_eq_ok_iff {pairs : List Json} {branches : List (Clause × Clause)}
    (h : ∀ pair ∈ pairs, pair.Throughout Grammatical) :
    readBranches i pairs loc = .ok branches ↔ List.Forall₂ DenotesBranch pairs branches := by
  induction pairs generalizing i branches with
  | nil => simp [readBranches, pure, Except.pure, eq_comm]
  | cons pair rest ih =>
    obtain ⟨hpair, hrest⟩ := List.forall_mem_cons.mp h
    rw [readBranches]
    exact cons_eq_ok_iff_forall₂ (fun _ => readBranch_eq_ok_iff hpair) fun _ => ih hrest

theorem optionRel_none_iff : Option.Rel Denotes none fallback ↔ fallback = none := by
  constructor
  · rintro ⟨⟩
    rfl
  · rintro rfl
    exact .none

theorem optionRel_some_iff :
    Option.Rel Denotes (some v) fallback ↔ ∃ c, Denotes v c ∧ some c = fallback := by
  constructor
  · intro h
    cases h with
    | some hc => exact ⟨_, hc, rfl⟩
  · rintro ⟨c, hc, rfl⟩
    exact .some hc

theorem readDefault_eq_ok_iff {entries : List (String × Json)}
    (h : ∀ e ∈ entries, Grammatical e.2) :
    readDefault entries loc = .ok fallback ↔
      Option.Rel Denotes (entries.lookup "default") fallback := by
  induction entries with
  | nil => simp [readDefault, optionRel_none_iff, pure, Except.pure, eq_comm]
  | cons e rest ih =>
    obtain ⟨key, v⟩ := e
    obtain ⟨hv, hrest⟩ := List.forall_mem_cons.mp h
    rw [readDefault]
    split
    · rename_i hkey
      have hfound : List.lookup "default" ((key, v) :: rest) = some v := by simp [hkey]
      simp only [hfound, optionRel_some_iff, map_eq_ok_iff, hv _ _]
    · rename_i hkey
      have hfound : List.lookup "default" ((key, v) :: rest) = rest.lookup "default" := by
        rw [List.lookup_cons, beq_eq_false_iff_ne.mpr (Ne.symm hkey)]
      rw [hfound]
      exact ih hrest

theorem readFallback_eq_ok_iff {rest : List Json} (h : ∀ v ∈ rest, v.Throughout Grammatical) :
    readFallback rest loc = .ok fallback ↔
      Option.Rel Denotes (rest.head?.bind (·.get? "default")) fallback := by
  unfold readFallback
  split
  · rename_i entries others
    have hoptions := h _ List.mem_cons_self
    exact readDefault_eq_ok_iff fun e he => (hoptions.inside (s := .key e.1) (.key he)).here
  · rename_i hother
    have hnone : rest.head?.bind (·.get? "default") = none := by
      cases rest with
      | nil => rfl
      | cons v others =>
        cases v with
        | obj entries => exact absurd rfl (hother entries others)
        | _ => rfl
    rw [hnone, optionRel_none_iff]
    simp [pure, Except.pure, eq_comm]

theorem readCase_eq_ok_iff {args : List Json} {whole : Json} {c : Clause}
    (h : ∀ v ∈ args, v.Throughout Grammatical) :
    readCase args loc whole = .ok c ↔ ∃ pairs rest branches fallback, args = .arr pairs :: rest ∧
      List.Forall₂ DenotesBranch pairs branches ∧
        Option.Rel Denotes (rest.head?.bind (·.get? "default")) fallback ∧
          .case branches fallback = c := by
  unfold readCase
  split
  · rename_i pairs rest
    obtain ⟨hpairs, hrest⟩ := List.forall_mem_cons.mp h
    have hinside : ∀ pair ∈ pairs, pair.Throughout Grammatical := by
      intro pair hpair
      obtain ⟨s, hs⟩ := Json.exists_leads_of_mem hpair
      exact hpairs.inside hs
    simp only [bind_eq_ok_iff, readBranches_eq_ok_iff hinside, readFallback_eq_ok_iff hrest, pure,
      Except.pure, Except.ok.injEq]
    constructor
    · rintro ⟨branches, hbranches, fallback, hfallback, rfl⟩
      exact ⟨pairs, rest, branches, fallback, rfl, hbranches, hfallback, rfl⟩
    · rintro ⟨pairs', rest', branches, fallback, heq, hbranches, hfallback, rfl⟩
      cases heq
      exact ⟨branches, hbranches, fallback, hfallback, rfl⟩
  · rename_i hother
    constructor
    · rintro ⟨⟩
    · rintro ⟨pairs, rest, _, _, rfl, -⟩
      exact absurd rfl (hother pairs rest)

end Parts

section Forms

variable {op : String} {args : List Json} {loc : Location} {c : Clause}

theorem exists_cons_of_bind {α : Type} {f : Json → Option α} {a : α}
    (h : args[0]?.bind f = some a) : ∃ v rest, args = v :: rest ∧ f v = some a := by
  cases args with
  | nil => cases h
  | cons v rest => exact ⟨v, rest, rfl, h⟩

theorem getElem?_one_cons (v : Json) (rest : List Json) : (v :: rest)[1]? = rest.head? := by
  rw [List.getElem?_cons_succ, List.head?_eq_getElem?]

theorem applies_of_read (hargs : ∀ v ∈ args, v.Throughout Grammatical)
    (h : read (.arr (.str op :: args)) loc = .ok c) : Applies op args c := by
  unfold read at h
  -- One case for each reserved operator, in the order in which they are read, and one for calls.
  split at h
  · obtain ⟨f, hf, rfl⟩ := map_eq_ok_iff.mp h
    obtain ⟨id, options, rfl, hid, hoptions⟩ := FieldRef.readArgs_eq_ok_iff.mp hf
    exact .field hid hoptions
  · obtain ⟨name, hname, h⟩ := bind_eq_ok_iff.mp h
    obtain ⟨options, hoptions, h⟩ := FieldOptions.readArg_eq_ok_iff.mp h
    cases h
    obtain ⟨v, rest, rfl, hv⟩ := exists_cons_of_bind (Reading.require_eq_ok_iff.mp hname)
    rw [getElem?_one_cons] at hoptions
    cases v with
    | str s =>
      cases hv
      exact .expression hoptions
    | _ => cases hv
  · obtain ⟨index, hindex, h⟩ := bind_eq_ok_iff.mp h
    cases h
    obtain ⟨v, rest, rfl, hv⟩ := exists_cons_of_bind (Reading.require_eq_ok_iff.mp hindex)
    exact .aggregation hv
  · split at h
    · rename_i amount unit hamount hunit
      obtain ⟨v, others, rfl, hamount⟩ := exists_cons_of_bind hamount
      rw [List.getElem?_cons_succ] at hunit
      obtain ⟨w, rest, rfl, hunit⟩ := exists_cons_of_bind hunit
      cases h
      exact .interval hamount hunit
    · cases h
  · split at h
    · cases h
    · rename_i v rest
      have hv : Grammatical v := (hargs v List.mem_cons_self).here
      obtain ⟨inner, hinner, h⟩ := bind_eq_ok_iff.mp h
      cases h
      exact .value ((hv _ _).mp hinner)
  · obtain ⟨pairs, rest, branches, fallback, rfl, hbranches, hfallback, rfl⟩ :=
      (readCase_eq_ok_iff hargs).mp h
    exact .case (.inl rfl) hbranches hfallback
  · obtain ⟨pairs, rest, branches, fallback, rfl, hbranches, hfallback, rfl⟩ :=
      (readCase_eq_ok_iff hargs).mp h
    exact .case (.inr rfl) hbranches hfallback
  · rename_i hfield hexpression haggregation hinterval hvalue hcase hif
    obtain ⟨cs, hcs, rfl⟩ := map_eq_ok_iff.mp h
    refine .call ?_ ((readArgs_eq_ok_iff fun v hv => (hargs v hv).here).mp hcs)
    simp only [reserved, List.mem_cons, List.not_mem_nil, or_false, not_or]
    exact ⟨hfield, hexpression, haggregation, hinterval, hvalue, hcase, hif⟩

theorem read_of_applies (hargs : ∀ v ∈ args, v.Throughout Grammatical) (h : Applies op args c) :
    read (.arr (.str op :: args)) loc = .ok c := by
  cases h with
  | field hid hoptions =>
    rw [read]
    exact map_eq_ok_iff.mpr ⟨_, FieldRef.readArgs_eq_ok_iff.mpr ⟨_, _, rfl, hid, hoptions⟩, rfl⟩
  | @expression name rest options hoptions =>
    rw [← getElem?_one_cons (.str name)] at hoptions
    rw [read]
    exact FieldOptions.readArg_eq_ok_iff.mpr ⟨options, hoptions, rfl⟩
  | aggregation hindex =>
    rw [read]
    exact bind_eq_ok_iff.mpr ⟨_, Reading.require_eq_ok_iff.mpr hindex, rfl⟩
  | interval hamount hunit =>
    rw [read]
    simp only [List.getElem?_cons_zero, List.getElem?_cons_succ, Option.bind_some, hamount, hunit]
    rfl
  | @value v rest inner hinner =>
    have hv : Grammatical v := (hargs v List.mem_cons_self).here
    rw [read, (hv _ _).mpr hinner]
    rfl
  | @case op pairs rest branches fallback hop hbranches hfallback =>
    have hcase (whole : Json) :
        readCase (.arr pairs :: rest) loc whole = .ok (.case branches fallback) :=
      (readCase_eq_ok_iff hargs).mpr
        ⟨pairs, rest, branches, fallback, rfl, hbranches, hfallback, rfl⟩
    rcases hop with rfl | rfl
    · rw [read]
      exact hcase _
    · rw [read]
      exact hcase _
  | call hop hcs =>
    simp only [reserved, List.mem_cons, List.not_mem_nil, or_false, not_or] at hop
    obtain ⟨hfield, hexpression, haggregation, hinterval, hvalue, hcase, hif⟩ := hop
    rw [read]
    · exact map_eq_ok_iff.mpr
        ⟨_, (readArgs_eq_ok_iff fun v hv => (hargs v hv).here).mpr hcs, rfl⟩
    all_goals assumption

end Forms

theorem read_eq_ok_iff_of_not_array {v : Json} {loc : Location} {c : Clause}
    (h : v.asArray? = none) :
    read v loc = .ok c ↔ ∃ l, Literal.ofJson? v = some l ∧ .literal l = c := by
  have hnot : ∀ items, v ≠ .arr items := by
    rintro items rfl
    cases h
  rw [read]
  · cases Literal.ofJson? v with
    | none => simp
    | some l => simp [pure, Except.pure]
  · exact fun op args => hnot _
  · exact hnot

theorem exists_op_of_read {v : Json} {items : List Json} {loc : Location} {c : Clause}
    (hv : v.asArray? = some items) (h : read v loc = .ok c) :
    ∃ op args, v = .arr (.str op :: args) := by
  cases v with
  | arr items =>
    cases items with
    | nil => cases h
    | cons tag args =>
      cases tag with
      | str op => exact ⟨op, args, rfl⟩
      | _ => cases h
  | _ => cases hv

theorem grammatical_of_inside (v : Json)
    (h : ∀ (s : Step) (u : Json), s.Leads v u → u.Throughout Grammatical) : Grammatical v := by
  have hinside (tag : Json) (args : List Json) (hv : v = .arr (tag :: args)) :
      ∀ u ∈ args, u.Throughout Grammatical := by
    intro u hu
    obtain ⟨s, hs⟩ := Json.exists_leads_of_mem (List.mem_cons_of_mem tag hu)
    exact h s u (hv ▸ hs)
  intro loc c
  constructor
  · intro hread
    cases harray : v.asArray? with
    | none =>
      obtain ⟨l, hl, rfl⟩ := (read_eq_ok_iff_of_not_array harray).mp hread
      exact .literal hl
    | some items =>
      obtain ⟨op, args, rfl⟩ := exists_op_of_read harray hread
      exact .array (applies_of_read (hinside _ _ rfl) hread)
  · intro hdenotes
    cases hdenotes with
    | literal hl =>
      have harray : v.asArray? = none := by
        cases v with
        | arr items => cases hl
        | _ => rfl
      exact (read_eq_ok_iff_of_not_array harray).mpr ⟨_, hl, rfl⟩
    | array happlies => exact read_of_applies (hinside _ _ rfl) happlies

theorem read_eq_ok_iff {v : Json} {loc : Location} {c : Clause} :
    read v loc = .ok c ↔ Denotes v c :=
  (Json.throughout_of_inside v grammatical_of_inside).here loc c

end Clause

end ResultSchema
