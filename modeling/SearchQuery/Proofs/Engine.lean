import SearchQuery.Request
import SearchQuery.Proofs.Wire

/-!
Request bodies as the engine reads them: the query decides what is searched, a filter beside it
narrows the hits alone, and each facet has filters of its own.
-/

namespace SearchQuery

open Json

namespace Engine

/-- Criteria of a body; what is no criteria holds of no document. -/
def accepts (r : Reading) (d : Document) (j : Json) : Bool :=
  (Criteria.ofJson? j).any (Criteria.holds r d)

/-- A query is criteria, or a query and a filter that both have to hold. -/
def acceptsQuery (r : Reading) (d : Document) : Json → Bool
  | .object [("filtered", filtered)] =>
    (filtered.member? "query").all (accepts r d) && (filtered.member? "filter").all (accepts r d)
  | j => accepts r d j

/-- Whether a document is searched; without a query all are. -/
def searches (r : Reading) (d : Document) (body : Json) : Bool :=
  (body.member? "query").all (acceptsQuery r d)

def finds (r : Reading) (d : Document) (body : Json) : Bool :=
  searches r d body && (body.member? "filter").all (accepts r d)

def facet? (body : Json) (name : String) : Option Json :=
  (body.member? "facets").bind (member? name)

/-- Whether the facet of a name is there and is computed from a document. -/
def feeds (r : Reading) (d : Document) (body : Json) (name : String) : Bool :=
  searches r d body && (facet? body name).any fun facet =>
    (facet.member? "facet_filter").all (accepts r d) && (facet.member? "filter").all (accepts r d)

theorem accepts_toJson {c : Criteria} (hc : c.WellFormed) (r : Reading) (d : Document) :
    accepts r d c.toJson = c.holds r d := by
  rw [accepts, Criteria.toJson, Criteria.ofJson?_single c hc]
  rfl

/-- Criteria are never taken for a filtered query. -/
theorem acceptsQuery_toJson {c : Criteria} (hc : c.WellFormed) (r : Reading) (d : Document) :
    acceptsQuery r d c.toJson = c.holds r d := by
  rw [← accepts_toJson hc]
  cases c <;> rfl

theorem acceptsQuery_filtered {q f : Criteria} (hq : q.WellFormed) (hf : f.WellFormed)
    (r : Reading) (d : Document) :
    acceptsQuery r d (single "filtered" (.object [("query", q.toJson), ("filter", f.toJson)])) =
      (q.holds r d && f.holds r d) := by
  rw [← accepts_toJson hq, ← accepts_toJson hf]
  rfl

end Engine

namespace Request

theorem get?_optionalMember (name other : String) (encode : α → Json) (a : Option α) :
    Members.get? other (optionalMember name encode a) =
      if name = other then a.map encode else none := by
  cases a <;> simp [optionalMember, Members.get?]

/-- A list as the value of a member; an empty one is left out. -/
def listValue? (encode : α → Json) (items : List α) : Option Json :=
  if items = [] then none else some (.array (items.map encode))

theorem get?_listMember (name other : String) (encode : α → Json) (items : List α) :
    Members.get? other (listMember name encode items) =
      if name = other then listValue? encode items else none := by
  cases items <;> simp [listMember, listValue?, Members.get?]

theorem get?_criteriaMembers_of_ne (hq : "query" ≠ name) (hf : "filter" ≠ name) (r : Request) :
    r.criteriaMembers.get? name = none := by
  rw [criteriaMembers]
  split
  · split <;> simp [Members.get?_append, get?_optionalMember, Members.get?, hq, hf]
  · simp [get?_optionalMember, hq]

theorem get?_facetMembers_of_ne {name : String} (h : "facets" ≠ name) (r : Request) :
    r.facetMembers.get? name = none := by
  rw [facetMembers]
  split <;> simp [Members.get?, h]

theorem member?_criteria (r : Request) (h : name = "query" ∨ name = "filter") :
    r.toJson.member? name = r.criteriaMembers.get? name := by
  have hf : r.facetMembers.get? name = none := by
    rcases h with rfl | rfl <;> exact get?_facetMembers_of_ne (by simp) r
  have hn : "from" ≠ name ∧ "size" ≠ name ∧ "sort" ≠ name ∧ "fields" ≠ name := by
    rcases h with rfl | rfl <;> simp
  simp [toJson, member?, Members.get?_append, get?_optionalMember, get?_listMember, hf, hn]

theorem member?_facets (r : Request) :
    r.toJson.member? "facets" = r.facetMembers.get? "facets" := by
  have hc := get?_criteriaMembers_of_ne (by simp : "query" ≠ "facets") (by simp) r
  simp [toJson, member?, Members.get?_append, get?_optionalMember, get?_listMember, hc]

/-- A request as it is planned: its criteria are well formed and its facets have different names. -/
structure WellFormed (q : Request) : Prop where
  filter : ∀ c ∈ q.filter, c.WellFormed
  query : ∀ c ∈ q.query, c.WellFormed
  facets : ∀ f ∈ q.facets, ∀ c ∈ f.body.filter?, c.WellFormed
  names : (q.facets.map Facet.name).Nodup

end Request

namespace Engine

theorem all_acceptsQuery_map {q : Option Criteria} (hq : ∀ c ∈ q, c.WellFormed) (r : Reading)
    (d : Document) :
    (q.map Criteria.toJson).all (acceptsQuery r d) = q.all (Criteria.holds r d) := by
  cases q with
  | none => rfl
  | some c => exact acceptsQuery_toJson (hq c rfl) r d

/-- A filter counts for what is searched when there are facets, and not otherwise. -/
theorem searches_toJson {q : Request} (hq : q.WellFormed) (r : Reading) (d : Document) :
    searches r d q.toJson = (q.query.all (Criteria.holds r d) &&
      (q.facets.isEmpty || q.filter.all (Criteria.holds r d))) := by
  have hquery := all_acceptsQuery_map hq.query r d
  rw [searches, Request.member?_criteria q (.inl rfl), Request.criteriaMembers]
  cases hf : q.filter with
  | none => simp [Request.get?_optionalMember, hquery]
  | some f =>
    cases hs : q.facets.isEmpty with
    | true => simp [Members.get?_append, Request.get?_optionalMember, Members.get?, hquery]
    | false =>
      have hd : (q.query.getD .matchAll).WellFormed := by
        cases hc : q.query with
        | none => trivial
        | some c => exact hq.query c hc
      have hh : (q.query.getD .matchAll).holds r d = q.query.all (Criteria.holds r d) := by
        cases q.query <;> rfl
      simp [Members.get?, acceptsQuery_filtered hd (hq.filter f hf), hh]

theorem finds_toJson {q : Request} (hq : q.WellFormed) (r : Reading) (d : Document) :
    finds r d q.toJson =
      (q.query.all (Criteria.holds r d) && q.filter.all (Criteria.holds r d)) := by
  rw [finds, searches_toJson hq, Request.member?_criteria q (.inr rfl), Request.criteriaMembers]
  cases hf : q.filter with
  | none => simp [Request.get?_optionalMember]
  | some f =>
    have hfilter := accepts_toJson (hq.filter f hf) r d
    cases hs : q.facets.isEmpty with
    | true => simp [Members.get?_append, Request.get?_optionalMember, Members.get?, hfilter]
    | false => simp [Members.get?]

/-- A facet is found under its name, since no other one has it. -/
theorem facet?_toJson {q : Request} (hq : q.WellFormed) (hf : f ∈ q.facets) :
    facet? q.toJson f.name = some f.body.toJson := by
  have hne : q.facets.isEmpty = false := List.isEmpty_eq_false_iff.2 (List.ne_nil_of_mem hf)
  have hn : (q.facets.map fun f => (f.name, f.body.toJson)).map Prod.fst =
      q.facets.map Facet.name := by
    simp
  have hnd : ((q.facets.map fun f => (f.name, f.body.toJson)).map Prod.fst).Nodup := hn ▸ hq.names
  rw [facet?, Request.member?_facets, Request.facetMembers, hne]
  simp only [Bool.false_eq_true, if_false, Members.get?, if_true, Option.bind_some, member?,
    Members.ofList_of_nodup hnd]
  exact Members.get?_of_mem hnd (List.mem_map_of_mem (f := fun f => (f.name, f.body.toJson)) hf)

theorem get?_filterMember (other : String) (f : Option Criteria) :
    (FacetBody.filterMember f).get? other =
      if "facet_filter" = other then f.map Criteria.toJson else none := by
  cases f <;> simp [FacetBody.filterMember, Members.get?]

theorem filters_beside {kind : String} (hk : kind ≠ "facet_filter" ∧ kind ≠ "filter") (inner : Json)
    {f : Option Criteria} (hf : ∀ c ∈ f, c.WellFormed) (r : Reading) (d : Document) :
    (((Json.object ((kind, inner) :: FacetBody.filterMember f)).member? "facet_filter").all
          (accepts r d) &&
        ((Json.object ((kind, inner) :: FacetBody.filterMember f)).member? "filter").all
          (accepts r d)) = f.all (Criteria.holds r d) := by
  simp only [member?, Members.get?, hk.1, hk.2, if_false, get?_filterMember]
  cases f with
  | none => rfl
  | some c => simpa using accepts_toJson (hf c rfl) r d

/-- The criteria of a count stand for the filter that other facets have beside what they compute. -/
theorem filters_toJson {b : FacetBody} (hb : ∀ c ∈ b.filter?, c.WellFormed) (r : Reading)
    (d : Document) :
    ((b.toJson.member? "facet_filter").all (accepts r d) &&
      (b.toJson.member? "filter").all (accepts r d)) = b.filter?.all (Criteria.holds r d) := by
  cases b with
  | terms fields f size => exact filters_beside (by simp) _ hb r d
  | termsStats key value f size => exact filters_beside (by simp) _ hb r d
  | statistical fields f => exact filters_beside (by simp) _ hb r d
  | filter c => exact accepts_toJson (hb c rfl) r d

/-- A facet is computed from the documents that the query, the filter and its own filter let
through. -/
theorem feeds_toJson {q : Request} (hq : q.WellFormed) (hf : f ∈ q.facets) (r : Reading)
    (d : Document) :
    feeds r d q.toJson f.name = (q.query.all (Criteria.holds r d) &&
      q.filter.all (Criteria.holds r d) && f.body.filter?.all (Criteria.holds r d)) := by
  have hne : q.facets.isEmpty = false := List.isEmpty_eq_false_iff.2 (List.ne_nil_of_mem hf)
  rw [feeds, searches_toJson hq, facet?_toJson hq hf, Option.any_some,
    filters_toJson (hq.facets f hf), hne, Bool.false_or]

end Engine

end SearchQuery
