import SearchQuery.Criteria.Json

/-!
Facets: aggregations that are attached to a search request, each under a name that its result has in
the response.
-/

namespace SearchQuery

open Json

/-- What a facet computes: the counts per value of some fields, the statistics of one field per
value of another, the statistics of fields over all documents, or a count of documents. All but the
last may be narrowed by a filter, and those with buckets may limit their number. -/
inductive FacetBody where
  | terms (fields : List String) (filter : Option Criteria) (size : Option Nat)
  | termsStats (key value : String) (filter : Option Criteria) (size : Option Nat)
  | statistical (fields : List String) (filter : Option Criteria)
  | filter (criteria : Criteria)

structure Facet where
  name : String
  body : FacetBody

namespace FacetBody

def kind : FacetBody → String
  | terms .. => "terms"
  | termsStats .. => "terms_stats"
  | statistical .. => "statistical"
  | filter _ => "filter"

/-- The filter that decides which documents feed the facet. -/
def filter? : FacetBody → Option Criteria
  | terms _ f _ | termsStats _ _ f _ | statistical _ f => f
  | filter c => some c

def size? : FacetBody → Option Nat
  | terms _ _ size | termsStats _ _ _ size => size
  | statistical .. | filter _ => none

def hasBuckets : FacetBody → Bool
  | terms .. | termsStats .. => true
  | statistical .. | filter _ => false

/-- Limits the number of buckets; a facet without buckets stays as it is. -/
def limited (n : Nat) : FacetBody → FacetBody
  | terms fields f _ => terms fields f (some n)
  | termsStats key value f _ => termsStats key value f (some n)
  | b => b

/-- Whether two facets compute the same but for the number of buckets. -/
def agrees : FacetBody → FacetBody → Bool
  | terms fields f _, terms fields' f' _ => fields = fields' && f == f'
  | termsStats key value f _, termsStats key' value' f' _ =>
    key = key' && value = value' && f == f'
  | statistical fields f, statistical fields' f' => fields = fields' && f == f'
  | filter c, filter c' => c == c'
  | _, _ => false

def sizeMember : Option Nat → Members
  | none => []
  | some n => [("size", .nat n)]

def filterMember : Option Criteria → Members
  | none => []
  | some c => [("facet_filter", c.toJson)]

def toJson : FacetBody → Json
  | terms fields f size =>
    .object (("terms", .object (("fields", .strings fields) :: sizeMember size)) ::
      filterMember f)
  | termsStats key value f size =>
    .object (("terms_stats", .object (("key_field", .string key) ::
      ("value_field", .string value) :: sizeMember size)) :: filterMember f)
  | statistical fields f =>
    .object (("statistical", single "fields" (.strings fields)) :: filterMember f)
  | filter c => single "filter" c.toJson

end FacetBody

namespace Facet

def named (f : Facet) (name : String) : Facet := { f with name := name }

def limited (f : Facet) (n : Nat) : Facet := { f with body := f.body.limited n }

/-- Whether two facets can share one result; their names do not matter. -/
def sharesResultWith (f g : Facet) : Bool := f.body.agrees g.body

end Facet

end SearchQuery
