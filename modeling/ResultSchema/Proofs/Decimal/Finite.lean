import ResultSchema.Decimal.Numeral
import Mathlib.Data.Nat.Log

/-! # Finite doubles

A rounded quotient is finite when it is at most the largest finite double. So integers of 64 bits
and numerals that are read have finite doubles.
-/

namespace ResultSchema

namespace Double

def maxPower : Nat := 2045

/-- The largest finite double in units of `2 ^ -1074`. -/
def maxUnits : Nat := (Nat.pow 2 53 - 1) * Nat.pow 2 maxPower

theorem isFinite_of_lt {x : Double} (h : x.bits.toNat < infinityWord) : x.isFinite := by
  have hexponent : x.exponentField < 2047 := by
    simp only [exponentField, infinityWord, Nat.pow_eq] at h ⊢
    omega
  simp only [isFinite, bne_iff_ne]
  omega

theorem units_le {x : Double} (h : x.isFinite) : x.units ≤ maxUnits := by
  have hfield : x.exponentField < Nat.pow 2 11 := Nat.mod_lt _ (by decide)
  have hfraction : x.fraction < Nat.pow 2 52 := Nat.mod_lt _ (by decide)
  have hpower : x.power ≤ maxPower := by
    simp only [isFinite, bne_iff_ne, power, maxPower, Nat.pow_eq] at h hfield ⊢
    omega
  have hsignificand : x.significand ≤ Nat.pow 2 53 - 1 := by
    simp only [significand, Nat.pow_eq] at hfraction ⊢
    split <;> omega
  have hscale : Nat.pow 2 x.power ≤ Nat.pow 2 maxPower := by
    generalize maxPower = top at hpower ⊢
    exact Nat.pow_le_pow_right Nat.two_pos hpower
  rw [units, maxUnits]
  exact Nat.mul_le_mul hsignificand hscale

theorem roundHalfEven_le {num den bound : Nat} (hden : 0 < den) (h : num ≤ bound * den) :
    roundHalfEven num den ≤ bound := by
  have hquotient : num / den ≤ bound := Nat.div_le_of_le_mul (by rwa [Nat.mul_comm])
  unfold roundHalfEven
  dsimp only
  rcases Nat.lt_or_eq_of_le hquotient with hlt | rfl
  · split
    · omega
    · split <;> omega
  · -- The quotient is exact here, so that nothing is rounded up.
    have hdivide := Nat.div_add_mod' num den
    have hexact : num % den = 0 := by omega
    rw [hexact, if_pos (by omega)]

theorem log2_le_of_le_maxUnits {n : Nat} (h : n ≤ maxUnits) : n.log2 - 52 ≤ maxPower := by
  have hmax : maxUnits < 2 ^ (maxPower + 53) := by decide +kernel
  rcases Nat.eq_zero_or_pos n with rfl | hpos
  · exact Nat.zero_le _
  · have hlog : n.log2 < maxPower + 53 := (Nat.log2_lt hpos.ne').mpr (Nat.lt_of_le_of_lt h hmax)
    omega

section Leading

variable {num den : Nat}

theorem roundHalfEven_leading_le (hden : 0 < den) :
    roundHalfEven num (den * Nat.pow 2 ((num / den).log2 - 52)) ≤ Nat.pow 2 53 := by
  have hlead : num / den < 2 ^ ((num / den).log2 + 1) := Nat.lt_log2_self
  have hpow : 2 ^ ((num / den).log2 + 1) ≤ 2 ^ (53 + ((num / den).log2 - 52)) :=
    Nat.pow_le_pow_right (by decide) (by omega)
  have hnum : num < 2 ^ (53 + ((num / den).log2 - 52)) * den :=
    (Nat.div_lt_iff_lt_mul hden).mp (Nat.lt_of_lt_of_le hlead hpow)
  refine roundHalfEven_le (Nat.mul_pos hden (Nat.two_pow_pos _)) ?_
  rw [Nat.mul_comm den, ← Nat.mul_assoc, Nat.pow_eq, Nat.pow_eq, ← Nat.pow_add]
  exact hnum.le

/-- At the highest exponent the leading digits are not rounded beyond the largest double. -/
theorem roundHalfEven_top_le (hden : 0 < den) (h : num ≤ maxUnits * den) :
    roundHalfEven num (den * Nat.pow 2 maxPower) ≤ Nat.pow 2 53 - 1 := by
  have hscale : 0 < Nat.pow 2 maxPower := by
    generalize maxPower = top
    exact Nat.two_pow_pos top
  refine roundHalfEven_le (Nat.mul_pos hden hscale) ?_
  rw [Nat.mul_comm den, ← Nat.mul_assoc]
  exact h

theorem isFinite_ofRatio (hden : 0 < den) (h : num * unitsPerOne ≤ maxUnits * den) :
    (ofRatio num den).isFinite := by
  refine isFinite_of_lt ?_
  unfold ofRatio
  dsimp only
  generalize num * unitsPerOne = scaled at h ⊢
  have hquotient : scaled / den ≤ maxUnits :=
    Nat.div_le_of_le_mul (by rwa [Nat.mul_comm den maxUnits])
  have hshift := log2_le_of_le_maxUnits hquotient
  have hround : roundHalfEven scaled (den * Nat.pow 2 ((scaled / den).log2 - 52)) ≤ Nat.pow 2 53 :=
    roundHalfEven_leading_le hden
  have htop := roundHalfEven_top_le hden h
  generalize (scaled / den).log2 - 52 = shift at hshift hround ⊢
  simp only [infinityWord, Nat.pow_eq, UInt64.toNat_ofNat'] at hshift hround htop ⊢
  rcases hshift.lt_or_eq with hlt | rfl
  · rw [maxPower] at hlt
    omega
  · generalize roundHalfEven scaled (den * 2 ^ maxPower) = rounded at htop ⊢
    rw [maxPower]
    omega

end Leading

theorem isFinite_ofNat {n : Nat} (h : n < UInt64.size) : (ofNat n).isFinite := by
  refine isFinite_ofRatio Nat.one_pos ?_
  have hmax : UInt64.size * unitsPerOne ≤ maxUnits * 1 := by decide +kernel
  exact (Nat.mul_le_mul_right _ h.le).trans hmax

@[simp] theorem isFinite_negate (x : Double) : x.negate.isFinite = x.isFinite := by
  have hfield : x.negate.exponentField = x.exponentField := by
    simp only [negate, exponentField, Nat.pow_eq, UInt64.toNat_xor]
    rw [← Nat.shiftRight_eq_div_pow, ← Nat.shiftRight_eq_div_pow, Nat.shiftRight_xor_distrib,
      Nat.xor_mod_two_pow]
    exact Nat.xor_zero _
  rw [isFinite, isFinite, hfield]

theorem isFinite_ofInt {i : Int} (h : i.natAbs < UInt64.size) : (ofInt i).isFinite := by
  cases i with
  | ofNat n => exact isFinite_ofNat h
  | negSucc n =>
    rw [ofInt, isFinite_negate]
    exact isFinite_ofNat h

theorem le_roundHalfEven (num den : Nat) : num / den ≤ roundHalfEven num den := by
  unfold roundHalfEven
  dsimp only
  split
  · exact Nat.le_refl _
  · split <;> omega

theorem unitsPerOne_le_units {x : Double} (hone : 1023 * Nat.pow 2 52 ≤ x.bits.toNat)
    (hword : x.bits.toNat ≤ infinityWord) : unitsPerOne ≤ x.units := by
  have hfield : 1023 ≤ x.exponentField := by
    simp only [exponentField, infinityWord, Nat.pow_eq] at hone hword ⊢
    omega
  have hsignificand : Nat.pow 2 52 ≤ x.significand := by
    rw [significand, if_neg (by omega)]
    exact Nat.le_add_right _ _
  have hpower : 1022 ≤ x.power := Nat.le_sub_one_of_lt hfield
  have hone : unitsPerOne = Nat.pow 2 52 * Nat.pow 2 1022 := by decide +kernel
  rw [hone, units]
  generalize 1022 = low at hpower ⊢
  exact Nat.mul_le_mul hsignificand (Nat.pow_le_pow_right Nat.two_pos hpower)

/-- A natural number of at least `2 ^ 52` keeps as many leading digits. -/
theorem le_roundHalfEven_leading {n : Nat} (h : 52 ≤ n.log2) :
    Nat.pow 2 52 ≤ roundHalfEven n (1 * Nat.pow 2 (n.log2 - 52)) := by
  have hpos : n ≠ 0 := by
    rintro rfl
    simp at h
  refine Nat.le_trans ?_ (le_roundHalfEven n _)
  rw [Nat.one_mul, Nat.pow_eq, Nat.pow_eq, Nat.le_div_iff_mul_le (Nat.two_pow_pos _),
    ← Nat.pow_add, Nat.add_sub_cancel' h]
  exact Nat.log2_self_le hpos

theorem unitsPerOne_le_units_ofNat {n : Nat} (h : 0 < n) : unitsPerOne ≤ (ofNat n).units := by
  have hscaled : unitsPerOne ≤ n * unitsPerOne := Nat.le_mul_of_pos_left _ h
  have hlog : 1074 ≤ (n * unitsPerOne).log2 := by
    have hone : unitsPerOne.log2 = 1074 := by decide +kernel
    rw [← hone]
    simpa only [Nat.log2_eq_log_two] using Nat.log_mono_right hscaled
  have hround := le_roundHalfEven_leading (Nat.le_trans (by decide) hlog)
  have hword : (ofNat n).bits.toNat = min infinityWord (((n * unitsPerOne).log2 - 52) * Nat.pow 2 52
      + roundHalfEven (n * unitsPerOne) (1 * Nat.pow 2 ((n * unitsPerOne).log2 - 52))) := by
    simp only [ofNat, ofRatio, Nat.div_one, UInt64.toNat_ofNat', infinityWord, Nat.pow_eq]
    omega
  refine unitsPerOne_le_units ?_ (hword ▸ Nat.min_le_left _ _)
  rw [hword]
  simp only [infinityWord, Nat.pow_eq] at hround ⊢
  omega

theorem isFinite_dividedBy {x y : Double} (hx : x.isFinite) (hy : unitsPerOne ≤ y.units) :
    (x.dividedBy y).isFinite := by
  have hone : 0 < unitsPerOne := by decide +kernel
  refine isFinite_ofRatio (Nat.lt_of_lt_of_le hone hy) ?_
  exact Nat.mul_le_mul (units_le hx) hy

end Double

namespace Numeral

variable {x y : Double}

theorem unitsPerOne_le_units_powerOfTen (e : Nat) : Double.unitsPerOne ≤ (powerOfTen e).units :=
  Double.unitsPerOne_le_units_ofNat (Nat.pow_pos (by decide))

theorem isFinite_scaleDown {e : Nat} (hx : x.isFinite) : (scaleDown x e).isFinite := by
  fun_induction scaleDown x e with
  | case1 x e _ => exact Double.isFinite_dividedBy hx (unitsPerOne_le_units_powerOfTen e)
  | case2 x e _ hzero => exact hx
  | case3 x e _ hzero ih =>
    exact ih (Double.isFinite_dividedBy hx (unitsPerOne_le_units_powerOfTen 308))

theorem isFinite_of_scaleUp? {e : Nat} (hx : x.isFinite) (h : scaleUp? x e = some y) :
    y.isFinite := by
  unfold scaleUp? at h
  split at h
  · cases h
    exact hx
  · split at h
    · dsimp only at h
      split at h
      · rename_i hfinite
        rwa [← Option.some.inj h]
      · cases h
    · cases h

theorem absorb_lt {n : Nat} {digits : List Nat} (h : n < UInt64.size) :
    (absorb n digits).1 < UInt64.size := by
  fun_induction absorb n digits with
  | case1 n => exact h
  | case2 n d rest hfits ih => exact ih hfits
  | case3 n d rest hfits => exact h

theorem isFinite_of_scale? {e : Int} (hx : x.isFinite) (h : scale? x e = some y) :
    y.isFinite := by
  cases e with
  | ofNat e => exact isFinite_of_scaleUp? hx h
  | negSucc e =>
    rw [← Option.some.inj h]
    exact isFinite_scaleDown hx

theorem isFinite_of_toDouble? {n : Numeral} (h : n.toDouble? = some x) : x.isFinite := by
  have hwhole : (absorb 0 n.whole).1 < UInt64.size := absorb_lt (by decide)
  have hdigits : (absorb (absorb 0 n.whole).1 n.fraction).1 < UInt64.size := absorb_lt hwhole
  obtain ⟨y, hy, h⟩ := Option.bind_eq_some_iff.mp h
  have hy := isFinite_of_scale? (Double.isFinite_ofNat hdigits) hy
  rw [← Option.some.inj h]
  split
  · rwa [Double.isFinite_negate]
  · exact hy

end Numeral

end ResultSchema
