import SearchQuery.Response.Facet
import SearchQuery.Json.Reader

/-!
Responses of the search engine and their JSON form. Sections that are absent read as empty.
-/

namespace SearchQuery

open Json

structure Hit where
  index : Option String := none
  docType : Option String := none
  id : Option String := none
  score : Option Double := none
  source : Option Json := none
  fields : Option Members := none

namespace Hit

def float (d : Double) : Json := .number (.float d)

def toJson (h : Hit) : Json :=
  .object [("_index", .ofOption .string h.index), ("_type", .ofOption .string h.docType),
    ("_id", .ofOption .string h.id), ("_score", .ofOption float h.score),
    ("_source", h.source.getD .null), ("fields", .ofOption .object h.fields)]

def ofJson? (j : Json) : Option Hit := do
  let [index, docType, id, score, source, fields] ←
    record? ["_index", "_type", "_id", "_score", "_source", "fields"] j | none
  return ⟨← optional? string? index, ← optional? string? docType, ← optional? string? id,
    ← optional? toDouble? score, ← optional? (some ·.collapse) source,
    ← optional? members? fields⟩

def shape : Shape :=
  .record [("_index", .any), ("_type", .any), ("_id", .any), ("_score", .any),
    ("_source", .any), ("fields", .any)]

def field (h : Hit) (name : String) : Json := (h.fields.bind (·.get? name)).getD .null

end Hit

/-- The documents of a response, and how many there are in all. -/
structure Hits where
  total : Nat := 0
  maxScore : Option Double := none
  hits : Option (List Hit) := none

namespace Hits

def toJson (h : Hits) : Json :=
  .object [("total", .nat h.total), ("max_score", .ofOption Hit.float h.maxScore),
    ("hits", .ofOption (fun hs => .array (hs.map Hit.toJson)) h.hits)]

def ofJson? (j : Json) : Option Hits := do
  let [total, maxScore, hits] ← record? ["total", "max_score", "hits"] j | none
  return ⟨← withDefault? 0 nat? total, ← optional? toDouble? maxScore,
    ← optional? (list? Hit.ofJson?) hits⟩

def shape : Shape := .record [("total", .any), ("max_score", .any), ("hits", .list Hit.shape)]

end Hits

structure Response where
  took : Nat := 0
  timedOut : Bool := false
  hits : Option Hits := none
  facets : Option Members := none

namespace Response

def toJson (r : Response) : Json :=
  .object [("took", .nat r.took), ("timed_out", .bool r.timedOut),
    ("hits", .ofOption Hits.toJson r.hits), ("facets", .ofOption .object r.facets)]

def ofJson? (j : Json) : Option Response := do
  let [took, timedOut, hits, facets] ← record? ["took", "timed_out", "hits", "facets"] j | none
  return ⟨← withDefault? 0 nat? took, ← withDefault? false bool? timedOut,
    ← optional? Hits.ofJson? hits, ← optional? members? facets⟩

def shape : Shape :=
  .record [("took", .any), ("timed_out", .any), ("hits", Hits.shape), ("facets", .any)]

def found (r : Response) : List Hit := (r.hits.bind Hits.hits).getD []

/-- The number of matching documents, returned or not. -/
def total (r : Response) : Nat := (r.hits.map Hits.total).getD 0

/-- The result of a facet; one that can not be decoded counts as absent. -/
def facet? (r : Response) (name : String) : Option FacetResult := do
  let members ← r.facets
  FacetResult.ofJson? (← members.get? name)

end Response

end SearchQuery
