import SearchQuery.Draft

/-!
The plan of a query: the search request that answers it, and the extractor of the response.
Missing arguments anywhere in the query are reported before anything else.
-/

namespace SearchQuery

structure Plan where
  request : Request
  extractor : Extractor

/-- The conjunction of criteria, none when it holds of every document. -/
def Criteria.all? (cs : List Criteria) : Option Criteria :=
  match Criteria.all cs with
  | .matchAll => none
  | c => some c

namespace Draft

def request (d : Draft) (docType : String) : Request :=
  { docType, filter := Criteria.all? d.filters, query := Criteria.all? d.queries, sort := d.sort }

/-- The request for the hits of the page. -/
def pageRequest (d : Draft) (docType : String) (p : Projection) : Request :=
  { d.request docType with fields := p.fields, start := d.start, size := d.limit }

/-- The request for the number of hits, which needs none of them. -/
def totalRequest (d : Draft) (docType : String) (p : Projection) : Request :=
  { d.request docType with fields := p.fields, size := some 0 }

/-- The request for the results of facets, which needs no hits. -/
def facetRequest (d : Draft) (docType : String) (p : GroupedProjection) : Request :=
  { d.request docType with facets := p.facets, size := some 0 }

/-- The plan of a whole chain over the documents of the type `source`, which the engine knows as
`docType`. -/
def finish (d : Draft) (source docType : String) : Except Error Plan :=
  match d.stage with
  | .documents =>
    .ok ⟨d.pageRequest docType .source, .hits ⟨.source, .document source⟩⟩
  | .selected p => .ok ⟨d.pageRequest docType p, .hits ⟨p, p.valueType source⟩⟩
  | .executed terminal p =>
    let skip := d.start.getD 0
    match terminal with
    | .first =>
      .ok ⟨{ d.pageRequest docType p with size := some (tighten d.limit 1) },
        .page (.first p (p.valueType source) skip d.limit)⟩
    | .count => .ok ⟨d.totalRequest docType p, .page (.count skip d.limit)⟩
    | .any => .ok ⟨d.totalRequest docType p, .page (.any skip d.limit)⟩
  | .grouping _ => .error (.unsupported .groupByWithoutSelect)
  | .grouped p limit =>
    let p := (limit.map p.limited).getD p
    .ok ⟨d.facetRequest docType p, .rows p.rows⟩

end Draft

def Query.plan (names : FieldNames) (q : Query) : Except Error Plan := do
  match q.missing with
  | a :: _ => throw (.missingArgument a)
  | [] =>
    let d ← q.steps.foldlM (Draft.step names) {}
    d.finish q.docType (names.naming.type q.docType)

end SearchQuery
