import SearchQuery.Criteria.Basic

/-!
Conjunction, disjunction and negation of criteria. They flatten as they build: nested conjunctions
and disjunctions are spliced, ranges of one field are merged in a conjunction, and equalities of one
field in a disjunction.
-/

namespace SearchQuery

namespace Bound

/-- Adds a bound to a range. If the range has a bound of the kind already, the stricter of the two
is kept; this fails unless both are numbers. -/
def insert (b : Bound) : List Bound → Option (List Bound)
  | [] => some [b]
  | a :: rest =>
    if a.kind = b.kind then do
      let x ← a.value.toDouble?
      let y ← b.value.toDouble?
      return (if b.kind.stricter x y then b else a) :: rest
    else (insert b rest).map (a :: ·)

def merge (existing incoming : List Bound) : Option (List Bound) :=
  incoming.foldlM (fun bounds b => b.insert bounds) existing

end Bound

namespace Criteria

/-- Puts a range into the first range of its field that it can be merged with, or at the end. -/
def insertRange (field : String) (bounds : List Bound) : List Criteria → List Criteria
  | [] => [.range field bounds]
  | .range f existing :: rest =>
    if f = field then
      match Bound.merge existing bounds with
      | some merged => .range f merged :: rest
      | none => .range f existing :: insertRange field bounds rest
    else .range f existing :: insertRange field bounds rest
  | c :: rest => c :: insertRange field bounds rest

def insertConjunct (must : List Criteria) : Criteria → List Criteria
  | .range field bounds => insertRange field bounds must
  | c => must ++ [c]

/-- The criteria that a conjunction with `c` has to hold. -/
def conjuncts : Criteria → List Criteria
  | .bool must [] [] => must
  | .matchAll => []
  | c => [c]

def all (cs : List Criteria) : Criteria :=
  match (cs.flatMap conjuncts).foldl insertConjunct [] with
  | [] => .matchAll
  | [c] => c
  | must => .bool must [] []

def distinct (values : List Json) : List Json :=
  values.foldl (fun seen v => if seen.any (· == v) then seen else seen ++ [v]) []

/-- The field and the values of a test for equality. -/
def equality? : Criteria → Option (String × List Json)
  | .term field value => some (field, [value])
  | .terms field values => some (field, values)
  | _ => none

/-- Puts the test `c` for `values` into the first test for equality of its field, or at the end. -/
def insertEquality (c : Criteria) (field : String) (values : List Json) :
    List Criteria → List Criteria
  | [] => [c]
  | d :: rest =>
    match d.equality? with
    | some (f, existing) =>
      if f = field then .terms field (distinct (existing ++ values)) :: rest
      else d :: insertEquality c field values rest
    | none => d :: insertEquality c field values rest

def insertDisjunct (should : List Criteria) (c : Criteria) : List Criteria :=
  match c.equality? with
  | some (field, values) => insertEquality c field values should
  | none => should ++ [c]

/-- The criteria of which a disjunction with `c` has to hold one. -/
def disjuncts : Criteria → List Criteria
  | .bool [] should [] => should
  | c => [c]

def any (cs : List Criteria) : Criteria :=
  match (cs.flatMap disjuncts).foldl insertDisjunct [] with
  | [c] => c
  | should => .bool [] should []

def negate : Criteria → Criteria
  | .present field => .missing field
  | .missing field => .present field
  | .bool [] [] [c] => c
  | c => .bool [] [] [c]

end Criteria

end SearchQuery
