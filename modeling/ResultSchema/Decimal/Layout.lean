import ResultSchema.Decimal.Shortest

/-! # How a decimal is written

A layout says which magnitudes are written without an exponent and whether a whole
number keeps its point. The sign of zero is kept.
-/

namespace ResultSchema

structure Layout where
  tie : Tie
  /-- Whether a decimal with its point after that many digits is written without exponent. -/
  positional : Int → Bool
  /-- Whether a whole number ends in `.0`. -/
  point : Bool

namespace Layout

def zeros (n : Nat) : String := String.ofList (List.replicate n '0')

def positionalText (layout : Layout) (d : Decimal) : String :=
  let digits := toString d.digits
  match d.exponent with
  | .ofNat k => digits ++ zeros k ++ if layout.point then ".0" else ""
  | .negSucc k =>
    let places := k + 1
    let chars := (zeros (places + 1 - digits.length) ++ digits).toList
    let whole := chars.length - places
    String.ofList (chars.take whole) ++ "." ++ String.ofList (chars.drop whole)

def exponentText (d : Decimal) : String :=
  let chars := (toString d.digits).toList
  let e := d.exponent + chars.length - 1
  let tail := chars.drop 1
  let mantissa := String.ofList (chars.take 1) ++ if tail.isEmpty then "" else "." ++ String.ofList tail
  mantissa ++ "e" ++ (if e < 0 then "-" else "+") ++ toString e.natAbs

def magnitudeText (layout : Layout) (x : Double) : String :=
  if x.isZero then if layout.point then "0.0" else "0"
  else
    let d := x.shortest layout.tie
    if layout.positional (d.exponent + (toString d.digits).length) then layout.positionalText d
    else exponentText d

/-- The text of a double; words that are no number have a name. -/
def text (layout : Layout) (x : Double) : String :=
  if x.isFinite then (if x.isNegative then "-" else "") ++ layout.magnitudeText x
  else if x.isInfinite then if x.isNegative then "-inf" else "inf"
  else "NaN"

/-- Numbers in JSON text: an exponent from `10 ^ 16` up and below `10 ^ -5`. -/
def json : Layout where
  tie := .toEven
  positional := fun e => -5 < e && e ≤ 16
  point := true

/-- Numbers in running text: never an exponent, no point in a whole number. -/
def plain : Layout where
  tie := .up
  positional := fun _ => true
  point := false

end Layout

end ResultSchema
