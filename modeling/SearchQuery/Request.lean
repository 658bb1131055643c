import SearchQuery.Facet

/-!
Search requests, their JSON body and the path they are sent to.
-/

namespace SearchQuery

open Json

structure SortKey where
  field : String
  descending : Bool
deriving DecidableEq

namespace SortKey

/-- The field that stands for the relevance of a document. -/
def relevanceField : String := "_score"

def relevance (descending : Bool) : SortKey := ⟨relevanceField, descending⟩

def isRelevance (k : SortKey) : Bool := k.field = relevanceField

def toJson (k : SortKey) : Json :=
  single k.field (.string (if k.descending then "desc" else "asc"))

end SortKey

/-- `fields` are returned instead of whole documents when there are any; `start` documents are
skipped and at most `size` returned. -/
structure Request where
  docType : String
  filter : Option Criteria := none
  query : Option Criteria := none
  facets : List Facet := []
  sort : List SortKey := []
  fields : List String := []
  start : Option Nat := none
  size : Option Nat := none

namespace Request

def facet? (r : Request) (name : String) : Option Facet :=
  r.facets.find? (·.name = name)

def optionalMember (name : String) (encode : α → Json) : Option α → Members
  | none => []
  | some a => [(name, encode a)]

def listMember (name : String) (encode : α → Json) (items : List α) : Members :=
  if items.isEmpty then [] else [(name, .array (items.map encode))]

/-- The engine narrows the hits by a filter, but not the facets: beside facets the filter becomes
part of the query. -/
def criteriaMembers (r : Request) : Members :=
  match r.filter with
  | some f =>
    if r.facets.isEmpty then
      optionalMember "query" Criteria.toJson r.query ++ [("filter", f.toJson)]
    else
      [("query", single "filtered"
        (.object [("query", (r.query.getD .matchAll).toJson), ("filter", f.toJson)]))]
  | none => optionalMember "query" Criteria.toJson r.query

def facetMembers (r : Request) : Members :=
  if r.facets.isEmpty then []
  else [("facets", .object (Members.ofList (r.facets.map fun f => (f.name, f.body.toJson))))]

/-- The body of the request; parts that are absent are left out. -/
def toJson (r : Request) : Json :=
  .object (optionalMember "from" .nat r.start ++ optionalMember "size" .nat r.size ++
    listMember "sort" SortKey.toJson r.sort ++ listMember "fields" .string r.fields ++
    r.criteriaMembers ++ r.facetMembers)

def path (r : Request) (index : Option String) : String :=
  match index with
  | some name =>
    if name = "" then "/" ++ r.docType ++ "/_search"
    else "/" ++ name ++ "/" ++ r.docType ++ "/_search"
  | none => "/" ++ r.docType ++ "/_search"

end Request

end SearchQuery
