import SearchQuery.Number.Basic

/-!
Numbers in units of `2 ^ -1074` and the doubles nearest to them. Rounding keeps the order of
numbers, and a double is nearest to itself.
-/

namespace SearchQuery

namespace Double

theorem roundDiv_mul (n : Nat) {den : Nat} (h : 0 < den) : roundDiv (n * den) den = n := by
  rw [roundDiv, Nat.mul_div_cancel n h, Nat.mul_mod_left]
  exact if_pos (.inl h)

theorem roundDiv_le_succ (num den : Nat) : roundDiv num den ≤ num / den + 1 := by
  unfold roundDiv
  dsimp only
  split <;> omega

/-- Of two numbers on one grid the larger is not rounded to less. -/
theorem roundDiv_mono {m n : Nat} (den : Nat) (h : m ≤ n) : roundDiv m den ≤ roundDiv n den := by
  rcases Nat.lt_or_eq_of_le (Nat.div_le_div_right (c := den) h) with hlt | heq
  · calc
      roundDiv m den ≤ m / den + 1 := roundDiv_le_succ m den
      _ ≤ n / den := hlt
      _ ≤ roundDiv n den := div_le_roundDiv n den
  · have hm := Nat.div_add_mod m den
    have hn := Nat.div_add_mod n den
    rw [heq] at hm
    have hmod : m % den ≤ n % den := by omega
    simp only [roundDiv, heq]
    split <;> split <;> omega

/-- The units that a number of units is rounded to when there is no largest double. -/
def rounded (n : Nat) : Nat :=
  roundDiv n (Nat.pow 2 (gridExponent n 1)) * Nat.pow 2 (gridExponent n 1)

theorem gridExponent_mono {m n : Nat} (h : m ≤ n) : gridExponent m 1 ≤ gridExponent n 1 := by
  rw [gridExponent, gridExponent, Nat.div_one, Nat.div_one]
  rcases Nat.eq_zero_or_pos m with rfl | hm
  · simp
  · have hn : n ≠ 0 := by omega
    have hlog : m.log2 ≤ n.log2 :=
      (Nat.le_log2 hn).2 (Nat.le_trans (Nat.log2_self_le (by omega)) h)
    omega

theorem roundDiv_le_full (n : Nat) :
    roundDiv n (Nat.pow 2 (gridExponent n 1)) ≤ Nat.pow 2 53 := by
  have hdiv : n / 2 ^ gridExponent n 1 < 2 ^ 53 := by
    rw [Nat.div_lt_iff_lt_mul (Nat.two_pow_pos _), ← Nat.pow_add]
    calc
      n < 2 ^ (n.log2 + 1) := Nat.lt_log2_self
      _ ≤ 2 ^ (53 + gridExponent n 1) := by
        apply Nat.pow_le_pow_right (by decide)
        rw [gridExponent, Nat.div_one]
        omega
  exact Nat.le_trans (roundDiv_le_succ n _) hdiv

theorem le_roundDiv_of_ne_zero {n : Nat} (h : gridExponent n 1 ≠ 0) :
    Nat.pow 2 52 ≤ roundDiv n (Nat.pow 2 (gridExponent n 1)) := by
  have hc := (canonical_roundDiv n 1).resolve_left h
  rwa [Nat.one_mul] at hc

/-- The full significand of one grid is the least of the next. -/
theorem carry (e : Nat) : Nat.pow 2 53 * Nat.pow 2 e = Nat.pow 2 52 * Nat.pow 2 (e + 1) := by
  have h := Nat.mul_assoc (2 ^ 52) 2 (2 ^ e)
  rwa [← Nat.pow_succ, ← Nat.pow_succ'] at h

/-- A grid ends where the next one, which is twice as wide, begins. -/
theorem rounded_mono {m n : Nat} (h : m ≤ n) : rounded m ≤ rounded n := by
  rcases Nat.lt_or_eq_of_le (gridExponent_mono h) with hlt | heq
  · have hne : gridExponent n 1 ≠ 0 := by omega
    calc
      rounded m ≤ 2 ^ 53 * 2 ^ gridExponent m 1 :=
        Nat.mul_le_mul_right _ (roundDiv_le_full m)
      _ = 2 ^ 52 * 2 ^ (gridExponent m 1 + 1) := carry _
      _ ≤ 2 ^ 52 * 2 ^ gridExponent n 1 :=
        Nat.mul_le_mul_left _ (Nat.pow_le_pow_right (by decide) hlt)
      _ ≤ rounded n := Nat.mul_le_mul_right _ (le_roundDiv_of_ne_zero hne)
  · rw [rounded, rounded, heq]
    exact Nat.mul_le_mul_right _ (roundDiv_mono _ h)

theorem gridExponent_magnitude (d : Double) : gridExponent d.magnitude 1 = d.exponent := by
  have hlt : d.significand < 2 ^ 53 := d.significand_lt
  rw [gridExponent, Nat.div_one]
  change (d.significand * 2 ^ d.exponent).log2 - 52 = d.exponent
  rcases Nat.eq_zero_or_pos d.exponent with he | he
  · rw [he, Nat.pow_zero, Nat.mul_one]
    rcases Nat.eq_zero_or_pos d.significand with hs | hs
    · rw [hs]
      rfl
    · have hlog := (Nat.log2_lt (by omega)).2 hlt
      omega
  · have hle : 2 ^ 52 ≤ d.significand := d.canonical.resolve_left (by omega)
    have hpos := Nat.two_pow_pos d.exponent
    have hne : d.significand * 2 ^ d.exponent ≠ 0 :=
      Nat.mul_ne_zero (by omega) (by omega)
    have hlog : (d.significand * 2 ^ d.exponent).log2 = 52 + d.exponent := by
      rw [Nat.log2_eq_iff hne]
      constructor
      · rw [Nat.pow_add]
        exact Nat.mul_le_mul_right _ hle
      · have hnext : 2 ^ (52 + d.exponent + 1) = 2 ^ 53 * 2 ^ d.exponent := by
          rw [← Nat.pow_add]
          congr 1
          omega
        rw [hnext]
        exact Nat.mul_lt_mul_of_pos_right hlt hpos
    omega

theorem rounded_magnitude (d : Double) : rounded d.magnitude = d.magnitude := by
  rw [rounded, gridExponent_magnitude]
  change roundDiv (d.significand * 2 ^ d.exponent) (2 ^ d.exponent) * 2 ^ d.exponent =
    d.significand * 2 ^ d.exponent
  rw [roundDiv_mul _ (Nat.two_pow_pos _)]

theorem magnitude_le_largest (d : Double) (negative : Bool) :
    d.magnitude ≤ (largest negative).magnitude :=
  Nat.mul_le_mul (Nat.le_sub_one_of_lt d.significand_lt)
    (Nat.pow_le_pow_right (by decide) d.exponent_le)

/-- A carry out of the significand goes into the exponent. -/
theorem ofUnits?_eq_some {negative : Bool} (h : ofUnits? negative n 1 = some d) :
    d.negative = negative ∧ d.magnitude = rounded n := by
  rw [ofUnits?] at h
  simp only [Nat.one_mul] at h
  split at h
  next hs =>
    split at h
    next he =>
      cases h
      exact ⟨rfl, rfl⟩
    next => cases h
  next hs =>
    split at h
    next he =>
      cases h
      have hfull : roundDiv n (Nat.pow 2 (gridExponent n 1)) = 2 ^ 53 :=
        Nat.le_antisymm (roundDiv_le_full n) (Nat.not_lt.1 hs)
      refine ⟨rfl, ?_⟩
      rw [rounded, hfull]
      exact (carry _).symm
    next => cases h

theorem magnitude_largest_le (negative : Bool) {e : Nat} (h : 2045 ≤ e) :
    (largest negative).magnitude ≤ Nat.pow 2 53 * Nat.pow 2 e :=
  Nat.mul_le_mul (Nat.sub_le (Nat.pow 2 53) 1) (Nat.pow_le_pow_right (by decide) h)

theorem ofUnits?_eq_none {negative : Bool} (h : ofUnits? negative n 1 = none) :
    (largest negative).magnitude ≤ rounded n := by
  rw [ofUnits?] at h
  simp only [Nat.one_mul] at h
  split at h
  next hs =>
    split at h
    next => cases h
    next he =>
      obtain ⟨e, hexp⟩ : ∃ e, gridExponent n 1 = e + 1 := Nat.exists_eq_add_one.2 (by omega)
      have hle := le_roundDiv_of_ne_zero (n := n) (by omega)
      calc
        (largest negative).magnitude ≤ Nat.pow 2 53 * Nat.pow 2 e :=
          magnitude_largest_le negative (by omega)
        _ = Nat.pow 2 52 * Nat.pow 2 (gridExponent n 1) := by rw [carry, hexp]
        _ ≤ rounded n := Nat.mul_le_mul_right _ hle
  next hs =>
    split at h
    next => cases h
    next he =>
      calc
        (largest negative).magnitude ≤ Nat.pow 2 53 * Nat.pow 2 (gridExponent n 1) :=
          magnitude_largest_le negative (by omega)
        _ ≤ rounded n := Nat.mul_le_mul_right _ (Nat.not_lt.1 hs)

/-- The units of the double nearest to a number of units. -/
def nearest (u : Int) : Int :=
  let m : Int := (min (rounded u.natAbs) (largest false).magnitude : Nat)
  if u < 0 then -m else m

theorem nearest_mono {u v : Int} (h : u ≤ v) : nearest u ≤ nearest v := by
  rw [nearest, nearest]
  split
  next hu =>
    split
    next hv =>
      have hr : rounded v.natAbs ≤ rounded u.natAbs := rounded_mono (by omega)
      omega
    next => omega
  next hu =>
    have hr : rounded u.natAbs ≤ rounded v.natAbs := rounded_mono (by omega)
    split <;> omega

theorem nearest_units (d : Double) : nearest d.units = d.units := by
  have hnat : d.units.natAbs = d.magnitude := by
    rw [units]
    split <;> simp
  rw [nearest, hnat, rounded_magnitude, Nat.min_eq_left (magnitude_le_largest d false), units]
  split <;> split <;> omega

theorem units_ofInt (n : Int) : (ofInt n).units = nearest (n * Nat.pow 2 1074) := by
  have hnat : (n * Nat.pow 2 1074).natAbs = n.natAbs * Nat.pow 2 1074 := by
    rw [Int.natAbs_mul, Int.natAbs_natCast]
  have hneg (e : Nat) : n * Nat.pow 2 e < 0 ↔ n < 0 := by
    have hpos : (0 : Int) < Nat.pow 2 e := Int.natCast_pos.2 (Nat.two_pow_pos e)
    have h := Int.mul_lt_mul_right (b := n) (c := 0) hpos
    rwa [Int.zero_mul] at h
  rw [nearest, hnat, ofInt]
  simp only [hneg]
  cases hd : ofUnits? (decide (n < 0)) (n.natAbs * Nat.pow 2 1074) 1 with
  | some d =>
    obtain ⟨hn, hm⟩ := ofUnits?_eq_some hd
    rw [Option.getD_some, ← hm, Nat.min_eq_left (magnitude_le_largest d false), units, hn]
    simp only [decide_eq_true_eq]
  | none =>
    have hm := ofUnits?_eq_none hd
    have hn : (largest (decide (n < 0))).negative = decide (n < 0) := rfl
    have hl : (largest (decide (n < 0))).magnitude = (largest false).magnitude := rfl
    rw [hl] at hm
    rw [Option.getD_none, Nat.min_eq_right hm, units, hn, hl]
    simp only [decide_eq_true_eq]

end Double

namespace Number

/-- The value in units of `2 ^ -1074`. -/
def units : Number → Int
  | int n => n * Nat.pow 2 1074
  | float d => d.units

theorem units_toDouble (n : Number) : n.toDouble.units = Double.nearest n.units := by
  cases n with
  | int n => exact Double.units_ofInt n
  | float d => exact (Double.nearest_units d).symm

/-- The doubles nearest to two numbers are never in the wrong order. -/
theorem units_toDouble_mono {m n : Number} (h : m.units ≤ n.units) :
    m.toDouble.units ≤ n.toDouble.units := by
  rw [units_toDouble, units_toDouble]
  exact Double.nearest_mono h

end Number

end SearchQuery
