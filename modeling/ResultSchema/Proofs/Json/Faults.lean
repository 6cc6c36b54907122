import ResultSchema.Json.ReadError
import ResultSchema.Proofs.Json.Reach
import ResultSchema.Proofs.Outcome

/-! # Places of faults

The reader of a value at a location reports faults inside that value only. An error then has the
steps from the location to the value that it quotes.
-/

namespace ResultSchema

/-- The error quotes the value to which its steps from the location lead. -/
def ReadError.Within (v : Json) (loc : Location) (e : ReadError) : Prop :=
  ∃ steps, e.location = { loc with steps := loc.steps ++ steps } ∧ v.Reaches steps e.value

theorem ReadError.Within.path_eq {v : Json} {loc : Location} {e : ReadError} (h : e.Within v loc) :
    ∃ steps, e.path = loc.text ++ String.join (steps.map fun s => "/" ++ s.text) ∧
      v.Reaches steps e.value := by
  obtain ⟨steps, hplace, hreach⟩ := h
  refine ⟨steps, ?_, hreach⟩
  rw [path, hplace, Location.text, Location.text, List.map_append, String.join_append,
    String.append_assoc]

/-- A reading of which every fault is inside the value at the location. -/
abbrev FaultsWithin {α : Type} (v : Json) (loc : Location) (x : Reading α) : Prop :=
  FailsOnly (ReadError.Within v loc) x

namespace FailsOnly

variable {α : Type} {s : Step} {v u : Json} {loc : Location} {x : Reading α}

theorem own (fault : ReadFault) : FaultsWithin v loc (.error ⟨fault, loc, v⟩ : Reading α) :=
  .error ⟨[], by rw [List.append_nil], .here v⟩

theorem require (o : Option α) (fault : ReadFault) :
    FaultsWithin v loc (Reading.require o fault loc v) := by
  unfold Reading.require
  split
  · exact .ok _
  · exact own fault

theorem requireObject {fault : ReadFault} {next : List (String × Json) → Reading α}
    (h : ∀ entries, v = .obj entries → FaultsWithin v loc (next entries)) :
    FaultsWithin v loc (Reading.require v.asObject? fault loc v >>= next) := by
  cases v with
  | obj entries => exact h entries rfl
  | _ => exact own fault

theorem requireArray {fault : ReadFault} {next : List Json → Reading α}
    (h : ∀ items, v = .arr items → FaultsWithin v loc (next items)) :
    FaultsWithin v loc (Reading.require v.asArray? fault loc v >>= next) := by
  cases v with
  | arr items => exact h items rfl
  | _ => exact own fault

theorem inside (hs : s.Leads v u)
    (h : FaultsWithin u { loc with steps := loc.steps ++ [s] } x) : FaultsWithin v loc x := by
  refine h.mono ?_
  rintro e ⟨steps, hplace, hreach⟩
  refine ⟨s :: steps, ?_, .step hs hreach⟩
  rw [hplace, List.append_assoc, List.singleton_append]

theorem key {name : String} {entries : List (String × Json)} (hmem : (name, u) ∈ entries)
    (h : FaultsWithin u (loc.key name) x) : FaultsWithin (.obj entries) loc x :=
  inside (.key hmem) h

theorem lookup {name : String} {entries : List (String × Json)}
    (hentry : entries.lookup name = some u) (h : FaultsWithin u (loc.key name) x) :
    FaultsWithin (.obj entries) loc x :=
  inside (Json.leads_of_get? hentry) h

theorem index {i : Nat} {items : List Json} (hitem : items[i]? = some u)
    (h : FaultsWithin u (loc.index i) x) : FaultsWithin (.arr items) loc x :=
  inside (.index hitem) h

end FailsOnly

end ResultSchema
