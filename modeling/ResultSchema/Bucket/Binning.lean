import ResultSchema.Json.ReadError

/-! # Numeric buckets

Binning of a grouping key. It is written with hyphens inside references and with
underscores inside column descriptors.
-/

namespace ResultSchema

inductive BinningStrategy
  | default | numBins | binWidth
  deriving DecidableEq, Repr

namespace BinningStrategy

def name : BinningStrategy → String
  | default => "default"
  | numBins => "num-bins"
  | binWidth => "bin-width"

def ofName? (text : String) : Option BinningStrategy :=
  [default, numBins, binWidth].find? (·.name == text)

theorem ofName?_name (s : BinningStrategy) : ofName? s.name = some s := by
  cases s <;> decide +kernel

end BinningStrategy

structure Binning where
  strategy : BinningStrategy
  numBins : Option UInt32 := none
  binWidth : Option Double := none
  deriving DecidableEq, Repr

namespace Binning

/-- Reads the form used inside references; counts and widths of another shape are dropped. -/
def read (v : Json) (loc : Location) : Reading Binning := do
  let _ ← Reading.require v.asObject? .binningNotObject loc v
  let strategy ← Reading.require (do BinningStrategy.ofName? (← (← v.get? "strategy").asString?))
    .unknownBinningStrategy loc v
  pure {
    strategy
    numBins := (v.get? "num-bins").bind Json.asUInt32?
    binWidth := (v.get? "bin-width").bind Json.asDouble? }

def entries (strategyKey countKey widthKey : String) (b : Binning) : List (String × Json) :=
  [(strategyKey, .str b.strategy.name)]
    ++ (b.numBins.map fun n => (countKey, Json.ofNat n.toNat)).toList
    ++ (b.binWidth.map fun w => (widthKey, Json.ofDouble w)).toList

/-- The form used inside references. -/
def toOptions (b : Binning) : Json := .obj (b.entries "strategy" "num-bins" "bin-width")

def toJson (b : Binning) : Json := .obj (b.entries "binning_strategy" "num_bins" "bin_width")

def ofJson? (v : Json) : Option Binning := do
  let entries ← v.asRecord? ["binning_strategy", "num_bins", "bin_width"]
  let maybe {α : Type} (key : String) (read : Json → Option α) : Option (Option α) :=
    ((entries.lookup key).getD .null).optional read
  pure {
    strategy := ← BinningStrategy.ofName? (← (← entries.lookup "binning_strategy").asTag?)
    numBins := ← maybe "num_bins" Json.asUInt32?
    binWidth := ← maybe "bin_width" Json.asDouble? }

def displayName (b : Binning) : String :=
  match b.strategy, b.numBins, b.binWidth with
  | .numBins, some n, _ => toString n.toNat ++ " bins"
  | .binWidth, _, some w => Layout.plain.text w ++ " width"
  | _, _, _ => "Auto binned"

end Binning

end ResultSchema
