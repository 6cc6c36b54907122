/-! # Binary64 words

A double is kept as its word and read as an exact multiple of `2 ^ -1074`. Rounding a
quotient of naturals to the nearest word, ties to even, is the only arithmetic.
-/

namespace ResultSchema

/-- A binary64 number, given by its word. -/
structure Double where
  bits : UInt64
  deriving DecidableEq, Repr, Inhabited

namespace Double

def isNegative (x : Double) : Bool := x.bits.toNat ≥ Nat.pow 2 63

def fraction (x : Double) : Nat := x.bits.toNat % Nat.pow 2 52

def exponentField (x : Double) : Nat := x.bits.toNat / Nat.pow 2 52 % Nat.pow 2 11

def isFinite (x : Double) : Bool := x.exponentField != 2047

def isInfinite (x : Double) : Bool := x.exponentField == 2047 && x.fraction == 0

def significand (x : Double) : Nat :=
  if x.exponentField = 0 then x.fraction else Nat.pow 2 52 + x.fraction

/-- The binary exponent above the smallest one; subnormals share the lowest normal exponent. -/
def power (x : Double) : Nat := x.exponentField - 1

/-- The absolute value of a finite double in units of `2 ^ -1074`. -/
def units (x : Double) : Nat := x.significand * Nat.pow 2 x.power

def unitsPerOne : Nat := Nat.pow 2 1074

def isZero (x : Double) : Bool := x.isFinite && x.significand == 0

/-- The natural number nearest to a quotient, the even one of two. -/
def roundHalfEven (num den : Nat) : Nat :=
  let q := num / den
  let r := num % den
  if 2 * r < den then q
  else if den < 2 * r then q + 1
  else q + q % 2

def infinityWord : Nat := 2047 * Nat.pow 2 52

/-- The nonnegative double nearest to a quotient, infinite when the quotient is too large. -/
def ofRatio (num den : Nat) : Double :=
  let scaled := num * unitsPerOne
  let shift := Nat.log2 (scaled / den) - 52
  ⟨UInt64.ofNat (min infinityWord (shift * Nat.pow 2 52 + roundHalfEven scaled (den * Nat.pow 2 shift)))⟩

def ofNat (n : Nat) : Double := ofRatio n 1

def negate (x : Double) : Double := ⟨x.bits ^^^ 0x8000000000000000⟩

def ofInt : Int → Double
  | .ofNat n => ofNat n
  | .negSucc n => negate (ofNat (n + 1))

def times (x y : Double) : Double := ofRatio (x.units * y.units) (unitsPerOne * unitsPerOne)

def dividedBy (x y : Double) : Double := ofRatio x.units y.units

end Double

end ResultSchema
