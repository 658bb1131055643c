/-!
Finite binary64 numbers, held exactly: every value is a whole number of units of `2 ^ -1074`, so
comparison is comparison of integers. Integers, ratios and decimals are rounded to the nearest
double, a tie going to the even significand.
-/

namespace SearchQuery

-- Powers are written out as `Nat.pow`: which instance `^` finds depends on what is imported.

/-- `± significand * 2 ^ exponent` units of `2 ^ -1074`; each value has one form, and zero a
sign. -/
structure Double where
  negative : Bool
  significand : Nat
  exponent : Nat
  significand_lt : significand < Nat.pow 2 53
  exponent_le : exponent ≤ 2045
  canonical : exponent = 0 ∨ Nat.pow 2 52 ≤ significand
deriving DecidableEq

namespace Double

def magnitude (d : Double) : Nat := d.significand * Nat.pow 2 d.exponent

/-- The value in units of `2 ^ -1074`; the two zeros agree. -/
def units (d : Double) : Int := if d.negative then -(d.magnitude : Int) else d.magnitude

instance : LT Double := ⟨fun a b => a.units < b.units⟩

instance (a b : Double) : Decidable (a < b) := inferInstanceAs (Decidable (a.units < b.units))

def zero (negative : Bool) : Double := ⟨negative, 0, 0, by decide, by decide, .inl rfl⟩

def largest (negative : Bool) : Double :=
  ⟨negative, Nat.pow 2 53 - 1, 2045, by decide, by decide, .inr (by decide)⟩

/-- The integer nearest to `num / den`, a tie going to the even one. -/
def roundDiv (num den : Nat) : Nat :=
  let q := num / den
  let twice := 2 * (num % den)
  if twice < den ∨ (twice = den ∧ q % 2 = 0) then q else q + 1

theorem div_le_roundDiv (num den : Nat) : num / den ≤ roundDiv num den := by
  unfold roundDiv
  dsimp only
  split <;> omega

/-- The exponent of the binary64 grid on which `num / den` units fall. -/
def gridExponent (num den : Nat) : Nat := (num / den).log2 - 52

theorem canonical_roundDiv (num den : Nat) :
    gridExponent num den = 0 ∨
      Nat.pow 2 52 ≤ roundDiv num (den * Nat.pow 2 (gridExponent num den)) := by
  by_cases h : gridExponent num den = 0
  · exact .inl h
  refine .inr (Nat.le_trans ?_ (div_le_roundDiv ..))
  have hlog : (num / den).log2 = 52 + gridExponent num den := by
    unfold gridExponent at h ⊢
    omega
  have hne : num / den ≠ 0 := by
    intro hz
    rw [hz] at hlog
    simp at hlog
    omega
  have hle := Nat.log2_self_le hne
  rw [hlog, Nat.pow_add] at hle
  rw [← Nat.div_div_eq_div_mul]
  exact (Nat.le_div_iff_mul_le (Nat.two_pow_pos _)).2 hle

/-- `num / den` units rounded to nearest, `none` beyond the largest double. -/
def ofUnits? (negative : Bool) (num den : Nat) : Option Double :=
  let exponent := gridExponent num den
  let significand := roundDiv num (den * Nat.pow 2 exponent)
  if hs : significand < Nat.pow 2 53 then
    if he : exponent ≤ 2045 then
      some ⟨negative, significand, exponent, hs, he, canonical_roundDiv num den⟩
    else none
  else if he : exponent + 1 ≤ 2045 then
    some ⟨negative, Nat.pow 2 52, exponent + 1, by decide, he, .inr (Nat.le_refl _)⟩
  else none

/-- The double nearest to an integer, and the largest one beyond the range. -/
def ofInt (n : Int) : Double :=
  let negative := decide (n < 0)
  (ofUnits? negative (n.natAbs * Nat.pow 2 1074) 1).getD (largest negative)

/-- The double nearest to `coefficient * 10 ^ exponent`, `none` beyond the range. The first two
cases bound the powers of ten that are computed: such values are out of range or round to zero. -/
def ofDecimal? (negative : Bool) (coefficient : Nat) (exponent : Int) : Option Double :=
  if coefficient = 0 ∨ coefficient.log2 + 1 + exponent < -330 then some (zero negative)
  else if 310 ≤ exponent then none
  else
    ofUnits? negative (coefficient * Nat.pow 10 exponent.toNat * Nat.pow 2 1074)
      (Nat.pow 10 (-exponent).toNat)

end Double

end SearchQuery
