import SearchQuery.Json.Decode

/-!
Results of facets. Buckets and statistical results keep every member that the engine put into them,
known or not.
-/

namespace SearchQuery

open Json

inductive Statistic where
  | count
  | total
  | mean
  | min
  | max
deriving DecidableEq

namespace Statistic

/-- The member of a facet result that holds the statistic. -/
def key : Statistic → String
  | count => "count"
  | total => "total"
  | mean => "mean"
  | min => "min"
  | max => "max"

/-- What a group without a result is reported with. -/
def whenAbsent : Statistic → Json
  | count => .nat 0
  | _ => .null

end Statistic

/-- One value of the key of a facet, and what was computed for it. -/
structure Bucket where
  term : Json
  values : Members

namespace Bucket

def toJson (b : Bucket) : Json := .object (("term", b.term) :: b.values)

def ofJson? : Json → Option Bucket
  | .object members => do
    let some term ← unique? members "term" | none
    return ⟨term.collapse, Members.ofList (collapseMembers (members.filter (·.1 ≠ "term")))⟩
  | _ => none

end Bucket

inductive FacetResult where
  | terms (buckets : List Bucket)
  | termsStats (buckets : List Bucket)
  | statistical (values : Members)
  | filter (count : Nat)

namespace FacetResult

def toJson : FacetResult → Json
  | terms buckets =>
    .object [("_type", .string "terms"), ("terms", .array (buckets.map Bucket.toJson))]
  | termsStats buckets =>
    .object [("_type", .string "terms_stats"), ("terms", .array (buckets.map Bucket.toJson))]
  | statistical values => .object (("_type", .string "statistical") :: values)
  | filter count => .object [("_type", .string "filter"), ("count", .nat count)]

def buckets? (payload : Json) : Option (List Bucket) := do
  let [buckets] ← record? ["terms"] payload | none
  withDefault? [] (list? Bucket.ofJson?) buckets

def ofJson? (j : Json) : Option FacetResult := do
  let (kind, payload) ← tagged? "_type" j
  match kind with
  | "terms" => return terms (← buckets? payload)
  | "terms_stats" => return termsStats (← buckets? payload)
  | "statistical" => return statistical (← payload.members?)
  | "filter" =>
    let [count] ← record? ["count"] payload | none
    return filter (← withDefault? 0 nat? count)
  | _ => none

/-- The buckets of a result that has some. -/
def buckets : FacetResult → List Bucket
  | terms bs | termsStats bs => bs
  | statistical _ | filter _ => []

/-- A statistic of the bucket of a term, or of the whole result when there is no term. -/
def statistic? (r : FacetResult) (term : Option Json) (s : Statistic) : Option Json :=
  match r, term with
  | terms bs, some t | termsStats bs, some t => do
    let b ← bs.find? (·.term == t)
    b.values.get? s.key
  | statistical values, none => values.get? s.key
  | filter count, none => if s = .count then some (.nat count) else none
  | _, _ => none

end FacetResult

end SearchQuery
