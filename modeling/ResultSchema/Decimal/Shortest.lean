import ResultSchema.Decimal.Double

/-! # The shortest decimal that reads back

A finite positive double is read back from every decimal in its rounding interval. The
grids of the powers of ten are tried from the coarsest; the first with a point in the
interval gives the digits.
-/

namespace ResultSchema

/-- The number `digits * 10 ^ exponent`. -/
structure Decimal where
  digits : Nat
  exponent : Int
  deriving DecidableEq, Repr

/-- Which of two equally near decimals is taken. -/
inductive Tie | toEven | up
  deriving DecidableEq, Repr

namespace Double

/-- Whether `num / den`, in quarters of the unit, reads back as `x`; the ends of the
interval count when the significand is even. -/
def readsBack (x : Double) (num den : Nat) : Bool :=
  let below := if x.fraction = 0 ∧ 1 < x.exponentField then 1 else 2
  let low := (4 * x.significand - below) * Nat.pow 2 x.power * den
  let high := (4 * x.significand + 2) * Nat.pow 2 x.power * den
  if x.significand % 2 = 0 then low ≤ num && num ≤ high else low < num && num < high

def onGrid? (x : Double) (tie : Tie) (exponent : Int) : Option Decimal :=
  let (num, den) := match exponent with
    | .ofNat e => (x.units, unitsPerOne * Nat.pow 10 e)
    | .negSucc e => (x.units * Nat.pow 10 (e + 1), unitsPerOne)
  let reads (d : Nat) : Bool := match exponent with
    | .ofNat e => x.readsBack (4 * d * Nat.pow 10 e * unitsPerOne) 1
    | .negSucc e => x.readsBack (4 * d * unitsPerOne) (Nat.pow 10 (e + 1))
  let d := num / den
  let nearer :=
    if 2 * (num % den) < den then d
    else if den < 2 * (num % den) then d + 1
    else match tie with
      | .toEven => d + d % 2
      | .up => d + 1
  let farther := 2 * d + 1 - nearer
  if reads nearer then some ⟨nearer, exponent⟩
  else if reads farther then some ⟨farther, exponent⟩
  else none

/-- An exponent of ten above the leading digit of `x`. -/
def topExponent (x : Double) : Nat := (x.units / unitsPerOne).log2 * 4 / 13 + 1

/-- The shortest decimal that reads back as a finite positive double, the nearest of them. -/
def shortest (x : Double) (tie : Tie) : Decimal :=
  ((List.range 660).findSome? fun i => x.onGrid? tie ((x.topExponent : Int) - Int.ofNat i)).getD ⟨0, 0⟩

end Double

end ResultSchema
