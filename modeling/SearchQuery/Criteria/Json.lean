import SearchQuery.Criteria.Basic
import SearchQuery.Json.Decode
import SearchQuery.Json.Reader

/-!
Criteria as JSON: an object with a single member, named for the criterion.
-/

namespace SearchQuery

open Json

namespace BoundKind

def ofToken? : String → Option BoundKind
  | "gt" => some above
  | "gte" => some atLeast
  | "lt" => some below
  | "lte" => some atMost
  | _ => none

theorem ofToken?_token (k : BoundKind) : ofToken? k.token = some k := by
  cases k <;> rfl

end BoundKind

namespace Bound

def toJson (b : Bound) : Json :=
  .object [("comparison", .string b.kind.token), ("value", b.value)]

def ofJson? (j : Json) : Option Bound := do
  let [kind, some value] ← record? ["comparison", "value"] j | none
  return ⟨← required? string? kind >>= BoundKind.ofToken?, value.collapse⟩

def shape : Shape := .record [("comparison", .any), ("value", .any)]

end Bound

namespace Criteria

def name : Criteria → String
  | matchAll => "match_all"
  | term .. => "term"
  | terms .. => "terms"
  | range .. => "range"
  | present _ => "exists"
  | missing _ => "missing"
  | startsWith .. => "prefix"
  | regexp .. => "regexp"
  | queryString _ => "query_string"
  | bool .. => "bool"

/-- The clause of a `bool`, none when it has no criteria. -/
def clause (name : String) (items : List Json) : Members :=
  if items.isEmpty then [] else [(name, .array items)]

mutual

/-- What the criterion says, without its name. -/
def body : Criteria → Json
  | matchAll => .object []
  | term field value => single field value
  | terms field values => single field (.array values)
  | range field bounds =>
    single field
      (.object (Members.ofList (bounds.map fun b => (b.kind.token, b.value))))
  | present field | missing field => single "field" (.string field)
  | startsWith field text => single field (.string text)
  | regexp field pattern => single field (.string pattern)
  | queryString text => single "query" (.string text)
  | bool must should mustNot =>
    .object (clause "must" (allToJson must) ++ clause "should" (allToJson should) ++
      clause "must_not" (allToJson mustNot))

def allToJson : List Criteria → List Json
  | [] => []
  | c :: rest => single c.name c.body :: allToJson rest

end

def toJson (c : Criteria) : Json := single c.name c.body

end Criteria

end SearchQuery
