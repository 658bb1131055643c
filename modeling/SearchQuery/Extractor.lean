import SearchQuery.Error
import SearchQuery.Response.Basic

/-!
Extractors turn a response into the value that a query asked for: a list of hits, a single value, or
one row per group. A missing response is an error; one without hits or facets is an empty result.
-/

namespace SearchQuery

inductive ValueType where
  | document (type : String)
  | value
  | integer
  | double
  | number
  | boolean
  | record (members : List String)
deriving DecidableEq

/-- How a hit becomes an item: the whole document, one field, or fields under new names. -/
inductive Projection where
  | source
  | field (name : String)
  | record (members : List (String × String))
deriving DecidableEq

def Projection.apply (p : Projection) (h : Hit) : Json :=
  match p with
  | source => h.source.getD .null
  | field name => h.field name
  | record members => .object (Members.ofList (members.map fun (name, f) => (name, h.field f)))

structure HitList where
  projection : Projection
  type : ValueType
deriving DecidableEq

def HitList.extract (x : HitList) (r : Response) : Json := .array (r.found.map x.projection.apply)

/-- A single value of a page of hits, which starts after `skip` of them and may be limited. -/
structure PageValue where
  terminal : Terminal
  projection : Projection
  type : ValueType
  skip : Nat
  limit : Option Nat
deriving DecidableEq

namespace PageValue

def count (skip : Nat) (limit : Option Nat) : PageValue := ⟨.count, .source, .integer, skip, limit⟩

def any (skip : Nat) (limit : Option Nat) : PageValue := ⟨.any, .source, .boolean, skip, limit⟩

def first (projection : Projection) (type : ValueType) (skip : Nat) (limit : Option Nat) :
    PageValue :=
  ⟨.first, projection, type, skip, limit⟩

/-- The number of matching documents on the page. -/
def size (x : PageValue) (r : Response) : Nat :=
  let remaining := r.total - x.skip
  match x.limit with
  | some limit => min remaining limit
  | none => remaining

/-- The page is cut out of the total here; the hits of a response are those of the page already, but
an empty page has no first hit. -/
def extract (x : PageValue) (r : Response) : Json :=
  match x.terminal with
  | .count => .nat (x.size r)
  | .any => .bool (x.size r > 0)
  | .first =>
    if x.limit = some 0 then .null
    else (r.found.head?.map x.projection.apply).getD .null

end PageValue

/-- What stands in a column of a row: the key of the group, or a statistic of a facet. -/
inductive Cell where
  | key
  | statistic (facet : String) (s : Statistic)
deriving DecidableEq

/-- A column is named in a record, and has no name as a value on its own. -/
structure Column where
  name : Option String
  cell : Cell
deriving DecidableEq

/-- The value of a cell in the row of a term, or in the only row when there are no terms. -/
def Cell.value (r : Response) (term : Option Json) : Cell → Json
  | key => term.getD .null
  | statistic facet s => ((r.facet? facet).bind (·.statistic? term s)).getD s.whenAbsent

/-- One row per term of the facets with buckets, or a single row when groups have no terms. -/
structure GroupRows where
  columns : List Column
  type : ValueType
  grouped : Bool
  bucketFacets : List String
deriving DecidableEq

namespace GroupRows

def insertTerm (terms : List Json) (t : Json) : List Json :=
  if terms.any (· == t) then terms else terms ++ [t]

def terms (x : GroupRows) (r : Response) : List Json :=
  let buckets := (x.bucketFacets.filterMap r.facet?).flatMap FacetResult.buckets
  (buckets.map Bucket.term).foldl insertTerm []

/-- A record of all columns, or the value of the first one. -/
def row (x : GroupRows) (r : Response) (term : Option Json) : Json :=
  match x.type with
  | .record _ =>
    .object (Members.ofList (x.columns.map fun c => (c.name.getD "", c.cell.value r term)))
  | _ => (x.columns.head?.map fun c => c.cell.value r term).getD .null

def extract (x : GroupRows) (r : Response) : Json :=
  if (r.facets.getD []).isEmpty then .array []
  else if x.grouped then .array ((x.terms r).map fun t => x.row r (some t))
  else .array [x.row r none]

end GroupRows

inductive Extractor where
  | hits (x : HitList)
  | page (x : PageValue)
  | rows (x : GroupRows)
deriving DecidableEq

namespace Extractor

def type : Extractor → ValueType
  | hits x => x.type
  | page x => x.type
  | rows x => x.type

def extract (x : Extractor) (response : Option Response) : Except Error Json :=
  match response with
  | none => .error (.missingArgument .response)
  | some r =>
    match x with
    | hits x => .ok (x.extract r)
    | page x => .ok (x.extract r)
    | rows x => .ok (x.extract r)

end Extractor

end SearchQuery
