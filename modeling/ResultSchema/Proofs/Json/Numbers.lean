import ResultSchema.Json.Reader
import ResultSchema.Proofs.Decimal.Finite
import ResultSchema.Proofs.Json.Reach

/-! # Numbers of documents

Every number of a document that is read from text is an integer of 64 bits, with or without sign,
or a finite double. The type of JSON values has room for other numbers, which no document has.
-/

namespace ResultSchema.Json

/-- A number is an integer of 64 bits, with or without sign, or a finite double. -/
def NumberFits : Json → Prop
  | int n => Int64.minValue.toInt ≤ n ∧ n < UInt64.size
  | double x => x.isFinite
  | _ => True

variable {v : Json} {s rest : List Char}

theorem numberFits_int_iff {n : Int} :
    NumberFits (int n) ↔ -9223372036854775808 ≤ n ∧ n < 18446744073709551616 := Iff.rfl

theorem isFinite_of_asDouble? {x : Double} (hv : v.NumberFits) (h : v.asDouble? = some x) :
    x.isFinite := by
  cases v with
  | int n =>
    cases h
    rw [numberFits_int_iff] at hv
    have hsize : n.natAbs < 18446744073709551616 := by omega
    exact Double.isFinite_ofInt hsize
  | double y =>
    cases h
    exact hv
  | null | bool _ | str _ | arr _ | obj _ => cases h

theorem throughout_of_toDouble? {n : Numeral} (h : double <$> n.toDouble? = some v) :
    v.Throughout NumberFits := by
  obtain ⟨x, hx, rfl⟩ := Option.map_eq_some_iff.mp h
  exact throughout_of_leaf (Numeral.isFinite_of_toDouble? hx) nofun

theorem throughout_of_ofIntegerLiteral {negative : Bool} {digits : List Nat}
    (h : ofIntegerLiteral negative digits = some v) : v.Throughout NumberFits := by
  unfold ofIntegerLiteral at h
  dsimp only at h
  split at h
  · split at h
    · rename_i hrange
      cases h
      refine throughout_of_leaf (numberFits_int_iff.mpr ?_) nofun
      simp only [Nat.pow_eq] at hrange
      omega
    · exact throughout_of_toDouble? h
  · split at h
    · rename_i hrange
      cases h
      refine throughout_of_leaf (numberFits_int_iff.mpr ?_) nofun
      have hsize : UInt64.size = 18446744073709551616 := rfl
      omega
    · exact throughout_of_toDouble? h

theorem throughout_of_readNumber (h : readNumber s = some (v, rest)) :
    v.Throughout NumberFits := by
  unfold readNumber at h
  dsimp only at h
  split at h
  · cases h
  · cases h
  · obtain ⟨⟨fraction, _⟩, -, h⟩ := Option.bind_eq_some_iff.mp h
    obtain ⟨⟨exponent, _⟩, -, h⟩ := Option.bind_eq_some_iff.mp h
    split at h
    · obtain ⟨value, hvalue, h⟩ := Option.bind_eq_some_iff.mp h
      cases h
      exact throughout_of_ofIntegerLiteral hvalue
    · obtain ⟨value, hvalue, h⟩ := Option.bind_eq_some_iff.mp h
      cases h
      exact throughout_of_toDouble? hvalue

structure ReadsFit (fuel : Nat) : Prop where
  value {s rest : List Char} {v : Json} :
    readValue fuel s = some (v, rest) → v.Throughout NumberFits
  items {s rest : List Char} {items : List Json} :
    readItems fuel s = some (items, rest) → ∀ v ∈ items, v.Throughout NumberFits
  entries {s rest : List Char} {entries : List (String × Json)} :
    readEntries fuel s = some (entries, rest) → ∀ e ∈ entries, e.2.Throughout NumberFits

namespace ReadsFit

variable {fuel : Nat}

theorem value_succ (ih : ReadsFit fuel) (h : readValue (fuel + 1) s = some (v, rest)) :
    v.Throughout NumberFits := by
  unfold readValue at h
  split at h
  case h_4 =>
    obtain ⟨⟨text, _⟩, -, h⟩ := Option.bind_eq_some_iff.mp h
    cases h
    exact throughout_of_leaf trivial nofun
  case h_5 =>
    split at h
    · cases h
      exact throughout_arr trivial nofun
    · obtain ⟨⟨items, _⟩, hitems, h⟩ := Option.bind_eq_some_iff.mp h
      cases h
      exact throughout_arr trivial (ih.items hitems)
  case h_6 =>
    split at h
    · cases h
      exact throughout_obj trivial nofun
    · obtain ⟨⟨entries, _⟩, hentries, h⟩ := Option.bind_eq_some_iff.mp h
      cases h
      exact throughout_obj trivial (ih.entries hentries)
  case h_7 => exact throughout_of_readNumber h
  all_goals
    cases h
    exact throughout_of_leaf trivial nofun

theorem items_succ (ih : ReadsFit fuel) {items : List Json}
    (h : readItems (fuel + 1) s = some (items, rest)) : ∀ v ∈ items, v.Throughout NumberFits := by
  unfold readItems at h
  obtain ⟨⟨first, _⟩, hfirst, h⟩ := Option.bind_eq_some_iff.mp h
  dsimp only at h
  split at h
  · obtain ⟨⟨others, _⟩, hothers, h⟩ := Option.bind_eq_some_iff.mp h
    cases h
    exact List.forall_mem_cons.mpr ⟨ih.value hfirst, ih.items hothers⟩
  · cases h
    exact List.forall_mem_singleton.mpr (ih.value hfirst)
  · cases h

theorem entries_succ (ih : ReadsFit fuel) {entries : List (String × Json)}
    (h : readEntries (fuel + 1) s = some (entries, rest)) :
    ∀ e ∈ entries, e.2.Throughout NumberFits := by
  unfold readEntries at h
  split at h
  · obtain ⟨⟨key, _⟩, -, h⟩ := Option.bind_eq_some_iff.mp h
    dsimp only at h
    split at h
    · obtain ⟨⟨first, _⟩, hfirst, h⟩ := Option.bind_eq_some_iff.mp h
      dsimp only at h
      split at h
      · obtain ⟨⟨others, _⟩, hothers, h⟩ := Option.bind_eq_some_iff.mp h
        cases h
        exact List.forall_mem_cons.mpr ⟨ih.value hfirst, ih.entries hothers⟩
      · cases h
        exact List.forall_mem_singleton.mpr (ih.value hfirst)
      · cases h
    · cases h
  · cases h

end ReadsFit

theorem readsFit (fuel : Nat) : ReadsFit fuel := by
  induction fuel with
  | zero => exact ⟨nofun, nofun, nofun⟩
  | succ fuel ih => exact ⟨ih.value_succ, ih.items_succ, ih.entries_succ⟩

theorem throughout_of_ofText? {text : String} (h : ofText? text = some v) :
    v.Throughout NumberFits := by
  obtain ⟨⟨value, _⟩, hvalue, h⟩ := Option.bind_eq_some_iff.mp h
  dsimp only at h
  split at h
  · cases h
    exact (readsFit _).value hvalue
  · cases h

end ResultSchema.Json
