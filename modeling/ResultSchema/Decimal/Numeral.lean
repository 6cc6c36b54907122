import ResultSchema.Decimal.Double

/-! # Doubles from decimal numerals

The leading digits that fit in 64 bits are taken as a whole number, and the remaining
power of ten is applied by one rounded multiplication or division.
-/

namespace ResultSchema

/-- The parts of a decimal numeral; digits are given by their values. -/
structure Numeral where
  negative : Bool
  whole : List Nat
  fraction : List Nat
  exponent : Int
  deriving Repr

namespace Numeral

/-- Leading digits appended to `n` as long as the result stays below `2 ^ 64`, and the
number of digits left over. -/
def absorb : Nat → List Nat → Nat × Nat
  | n, [] => (n, 0)
  | n, d :: rest => if 10 * n + d < UInt64.size then absorb (10 * n + d) rest else (n, rest.length + 1)

def powerOfTen (e : Nat) : Double := .ofNat (Nat.pow 10 e)

/-- Division by a power of ten, in steps of at most `10 ^ 308`. -/
def scaleDown (x : Double) (e : Nat) : Double :=
  if e ≤ 308 then x.dividedBy (powerOfTen e)
  else if x.isZero then x
  else scaleDown (x.dividedBy (powerOfTen 308)) (e - 308)
termination_by e

/-- Multiplication by a power of ten; fails beyond the finite range. -/
def scaleUp? (x : Double) (e : Nat) : Option Double :=
  if x.isZero then some x
  else if e ≤ 308 then
    let y := x.times (powerOfTen e)
    if y.isFinite then some y else none
  else none

def scale? (x : Double) : Int → Option Double
  | .ofNat e => scaleUp? x e
  | .negSucc e => some (scaleDown x (e + 1))

def toDouble? (n : Numeral) : Option Double := do
  let (whole, dropped) := absorb 0 n.whole
  let (digits, left) := absorb whole n.fraction
  let places := n.fraction.length - left
  let x ← scale? (.ofNat digits) (n.exponent + dropped - places)
  pure (if n.negative then x.negate else x)

end Numeral

end ResultSchema
