import SearchQuery.Number.Shortest

/-!
Numbers of a JSON value. An integer and a float are different values even when they agree
numerically; arithmetic comparison goes through the nearest double.
-/

namespace SearchQuery

inductive Number where
  | int (n : Int)
  | float (d : Double)
deriving DecidableEq

namespace Number

/-- Integers by value and floats by value, so `0.0` is `-0.0` but `1` is not `1.0`. -/
def same : Number → Number → Bool
  | int a, int b => a = b
  | float a, float b => a.units = b.units
  | _, _ => false

def toDouble : Number → Double
  | int n => Double.ofInt n
  | float d => d

def text : Number → String
  | int n => toString n
  | float d => d.text

end Number

end SearchQuery
