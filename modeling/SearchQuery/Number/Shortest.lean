import SearchQuery.Number.Double

/-!
The shortest decimal that reads back as a given double, and its text. Of the decimals with the
fewest digits that read back, the nearest to the value is chosen.
-/

namespace SearchQuery

/-- `coefficient * 10 ^ exponent`. -/
structure Decimal where
  coefficient : Nat
  exponent : Int
deriving DecidableEq

namespace Decimal

/-- Drops trailing zeros of the coefficient; zero is left alone. -/
def trimmed (d : Decimal) : Decimal :=
  if h : d.coefficient ≠ 0 ∧ d.coefficient % 10 = 0 then
    trimmed ⟨d.coefficient / 10, d.exponent + 1⟩
  else d
termination_by d.coefficient
decreasing_by exact Nat.div_lt_self (Nat.pos_of_ne_zero h.1) (by decide)

def digits (d : Decimal) : List Char := Nat.toDigits 10 d.coefficient

/-- Positional from `10 ^ -5` up to `10 ^ 16`, always with a point; scientific elsewhere. -/
def text (d : Decimal) : String :=
  let ds := d.digits
  let point : Int := ds.length + d.exponent
  if -5 < point ∧ point ≤ 16 then
    let whole := ds.take point.toNat ++ List.replicate (point.toNat - ds.length) '0'
    let fraction := List.replicate (-point).toNat '0' ++ ds.drop point.toNat
    String.ofList
      ((if whole.isEmpty then ['0'] else whole) ++ '.' ::
        (if fraction.isEmpty then ['0'] else fraction))
  else
    let exponent := point - 1
    let sign := if exponent < 0 then '-' else '+'
    String.ofList
      (ds.take 1 ++ (if ds.length = 1 then [] else '.' :: ds.drop 1) ++ 'e' :: sign ::
        Nat.toDigits 10 exponent.natAbs)

end Decimal

namespace Double

/-- The exponent of the leading decimal digit of a nonzero double; no double has its leading digit
below the 340th place. -/
def leadingExponent (d : Double) : Int :=
  let scaled := d.magnitude * Nat.pow 10 340 / Nat.pow 2 1074
  (Nat.toDigits 10 scaled).length - 341

/-- Whether `coefficient * 10 ^ exponent` rounds to the nonzero double `d`. The doubles next to `d`
are one significand away, or half as much below a power of two; an end of the interval between the
midpoints belongs to `d` when its significand is even. -/
def readsBackFrom (d : Double) (c : Decimal) : Bool :=
  let gapBelow := if d.significand = Nat.pow 2 52 ∧ d.exponent ≠ 0 then 1 else 2
  let scale := Nat.pow 2 d.exponent * Nat.pow 10 (-c.exponent).toNat
  let low := (4 * d.significand - gapBelow) * scale
  let high := (4 * d.significand + 2) * scale
  let value := c.coefficient * Nat.pow 10 c.exponent.toNat * Nat.pow 2 1076
  if d.significand % 2 = 0 then low ≤ value && value ≤ high else low < value && value < high

/-- The better of the two multiples of `10 ^ exponent` around `d`, when one reads back. -/
def onGrid? (d : Double) (exponent : Int) : Option Decimal :=
  let num := d.magnitude * Nat.pow 10 (-exponent).toNat
  let den := Nat.pow 2 1074 * Nat.pow 10 exponent.toNat
  let below : Decimal := ⟨num / den, exponent⟩
  let above : Decimal := ⟨num / den + 1, exponent⟩
  match d.readsBackFrom below, d.readsBackFrom above with
  | true, true => some ⟨roundDiv num den, exponent⟩
  | true, false => some below
  | false, true => some above
  | false, false => none

/-- The decimal with the fewest digits that reads back; seventeen digits always suffice. -/
def shortest (d : Double) : Decimal :=
  if d.significand = 0 then ⟨0, 0⟩
  else
    let leading := d.leadingExponent
    (((List.range 17).findSome? fun (i : Nat) => d.onGrid? (leading - i)).getD ⟨0, 0⟩).trimmed

def text (d : Double) : String := (if d.negative then "-" else "") ++ d.shortest.text

end Double

end SearchQuery
