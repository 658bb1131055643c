import SearchQuery.Json.Basic

/-!
Criteria: what a document must satisfy, in the terms of the search engine. Each leaf names one
field; a `bool` holds when all of `must`, one of `should` if there are any, and none of `mustNot`
do.
-/

namespace SearchQuery

/-- On which side of its value a bound leaves the field, and whether the value itself is left. -/
inductive BoundKind where
  | above
  | atLeast
  | below
  | atMost
deriving DecidableEq

namespace BoundKind

def token : BoundKind → String
  | above => "gt"
  | atLeast => "gte"
  | below => "lt"
  | atMost => "lte"

/-- The bound seen from the other operand of the comparison. -/
def flip : BoundKind → BoundKind
  | above => below
  | atLeast => atMost
  | below => above
  | atMost => atLeast

theorem flip_flip (k : BoundKind) : k.flip.flip = k := by
  cases k <;> rfl

/-- Whether a bound at `b` leaves less than one at `a` does. -/
def stricter : BoundKind → Double → Double → Bool
  | above, a, b | atLeast, a, b => a < b
  | below, a, b | atMost, a, b => b < a

end BoundKind

structure Bound where
  kind : BoundKind
  value : Json

/-- Equality of ranges, values being compared as JSON values. -/
def Bound.sameAll : List Bound → List Bound → Bool
  | [], [] => true
  | a :: as, b :: bs => a.kind = b.kind && a.value == b.value && sameAll as bs
  | _, _ => false

inductive Criteria where
  | matchAll
  | term (field : String) (value : Json)
  | terms (field : String) (values : List Json)
  | range (field : String) (bounds : List Bound)
  | present (field : String)
  | missing (field : String)
  | startsWith (field : String) (text : String)
  | regexp (field : String) (pattern : String)
  | queryString (text : String)
  | bool (must should mustNot : List Criteria)
deriving Inhabited

namespace Criteria

def field? : Criteria → Option String
  | term field _ | terms field _ | range field _ | present field | missing field
  | startsWith field _ | regexp field _ => some field
  | matchAll | queryString _ | bool .. => none

mutual

/-- Structural equality, values being compared as JSON values. -/
def same : Criteria → Criteria → Bool
  | matchAll, matchAll => true
  | term f v, term g w => f = g && v == w
  | terms f vs, terms g ws => f = g && Json.sameItems vs ws
  | range f bs, range g cs => f = g && Bound.sameAll bs cs
  | present f, present g => f = g
  | missing f, missing g => f = g
  | startsWith f s, startsWith g t => f = g && s = t
  | regexp f s, regexp g t => f = g && s = t
  | queryString s, queryString t => s = t
  | bool a b c, bool a' b' c' => sameAll a a' && sameAll b b' && sameAll c c'
  | _, _ => false

def sameAll : List Criteria → List Criteria → Bool
  | [], [] => true
  | a :: as, b :: bs => same a b && sameAll as bs
  | _, _ => false

end

instance : BEq Criteria := ⟨same⟩

end Criteria

end SearchQuery
