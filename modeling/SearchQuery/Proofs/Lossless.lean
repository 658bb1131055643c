import SearchQuery.Proofs.Selection

/-!
The body of a planned request loses nothing: whatever is not the type of the documents can be told
from it, and in the order in which the request has it.
-/

namespace SearchQuery

open Json

theorem Json.nat_injective : Function.Injective Json.nat := by
  intro a b h
  have hi : (a : Int) = b := by simpa [Json.nat] using h
  exact Int.ofNat_inj.1 hi

theorem Json.string_injective : Function.Injective Json.string := by
  intro a b h
  simpa using h

theorem Json.strings_injective : Function.Injective Json.strings := by
  intro as bs h
  have hmap : as.map Json.string = bs.map Json.string := by simpa [Json.strings] using h
  exact List.map_injective_iff.2 string_injective hmap

theorem SortKey.toJson_injective : Function.Injective SortKey.toJson := by
  rintro ⟨field, descending⟩ ⟨field', descending'⟩ h
  cases descending <;> cases descending' <;> simp_all [SortKey.toJson, single]

/-- What is told apart item by item is told apart in lists. -/
theorem eq_of_map_eq {f : α → β} {xs ys : List α}
    (hf : ∀ x ∈ xs, ∀ y ∈ ys, f x = f y → x = y) (h : xs.map f = ys.map f) : xs = ys := by
  induction xs generalizing ys with
  | nil =>
    have hy : ys = [] := by simpa using h.symm
    exact hy.symm
  | cons x xs ih =>
    cases ys with
    | nil => cases h
    | cons y ys =>
      rw [List.map_cons, List.map_cons, List.cons.injEq] at h
      have hx : x = y := hf x (.head _) y (.head _) h.1
      have hxs : xs = ys := ih (fun a ha b hb => hf a (.tail _ ha) b (.tail _ hb)) h.2
      rw [hx, hxs]

namespace Criteria

/-- Well formed criteria are told apart by what they are written as. -/
theorem eq_of_toJson_eq {a b : Criteria} (ha : a.WellFormed) (hb : b.WellFormed)
    (h : a.toJson = b.toJson) : a = b := by
  have hread : ofJson? a.toJson = ofJson? b.toJson := congrArg ofJson? h
  rw [toJson, toJson, ofJson?_single a ha, ofJson?_single b hb] at hread
  exact Option.some.inj hread

theorem eq_of_map_toJson_eq {a b : Option Criteria} (ha : ∀ c ∈ a, c.WellFormed)
    (hb : ∀ c ∈ b, c.WellFormed) (h : a.map toJson = b.map toJson) : a = b := by
  cases a with
  | none =>
    have hn : b = none := by simpa using h.symm
    exact hn.symm
  | some c =>
    obtain ⟨d, rfl, hd⟩ := Option.map_eq_some_iff.1 h.symm
    rw [eq_of_toJson_eq (ha c rfl) (hb d rfl) hd.symm]

theorem toJson_ne_filtered (c : Criteria) (j : Json) : c.toJson ≠ single "filtered" j := by
  intro h
  cases c <;> simp [toJson, single, name] at h

theorem all?_ne_matchAll (cs : List Criteria) : all? cs ≠ some .matchAll := by
  intro h
  rw [all?] at h
  split at h
  · cases h
  next hc => exact hc (Option.some.inj h)

/-- Where a query is never spelled out that holds of everything, it can stand for none. -/
theorem eq_of_getD_eq {a b : Option Criteria} (ha : a ≠ some .matchAll) (hb : b ≠ some .matchAll)
    (h : a.getD .matchAll = b.getD .matchAll) : a = b := by
  cases a <;> cases b <;> simp_all

end Criteria

namespace FacetBody

theorem sizeMember_injective : Function.Injective sizeMember := by
  intro a b h
  cases a <;> cases b <;> simp_all [sizeMember, nat_injective.eq_iff]

theorem filterMember_inj {f g : Option Criteria} (hf : ∀ c ∈ f, c.WellFormed)
    (hg : ∀ c ∈ g, c.WellFormed) (h : filterMember f = filterMember g) : f = g := by
  have hget := congrArg (Members.get? "facet_filter") h
  rw [Engine.get?_filterMember, Engine.get?_filterMember, if_pos rfl, if_pos rfl] at hget
  exact Criteria.eq_of_map_toJson_eq hf hg hget

theorem computed_inj {kind : String} {members members' : Members} {f g : Option Criteria}
    (hf : ∀ c ∈ f, c.WellFormed) (hg : ∀ c ∈ g, c.WellFormed)
    (h : Json.object ((kind, .object members) :: filterMember f) =
      .object ((kind, .object members') :: filterMember g)) : members = members' ∧ f = g := by
  simp only [Json.object.injEq, List.cons.injEq, Prod.mk.injEq, true_and] at h
  exact ⟨h.1, filterMember_inj hf hg h.2⟩

/-- Facets of different kinds are written under different names, and those of one kind are told
apart by what they compute or by their filters. -/
theorem eq_of_toJson_eq {a b : FacetBody} (ha : ∀ c ∈ a.filter?, c.WellFormed)
    (hb : ∀ c ∈ b.filter?, c.WellFormed) (h : a.toJson = b.toJson) : a = b := by
  cases a with
  | terms fields f size =>
    cases b with
    | terms fields' f' size' =>
      obtain ⟨hm, hf⟩ : _ ∧ f = f' := computed_inj ha hb h
      simp only [List.cons.injEq, Prod.mk.injEq, true_and] at hm
      rw [strings_injective hm.1, sizeMember_injective hm.2, hf]
    | _ => simp [toJson, single] at h
  | termsStats key value f size =>
    cases b with
    | termsStats key' value' f' size' =>
      obtain ⟨hm, hf⟩ : _ ∧ f = f' := computed_inj ha hb h
      simp only [List.cons.injEq, Prod.mk.injEq, true_and] at hm
      rw [string_injective hm.1, string_injective hm.2.1, sizeMember_injective hm.2.2, hf]
    | _ => simp [toJson, single] at h
  | statistical fields f =>
    cases b with
    | statistical fields' f' =>
      obtain ⟨hm, hf⟩ : _ ∧ f = f' := computed_inj ha hb h
      simp only [List.cons.injEq, Prod.mk.injEq, true_and, and_true] at hm
      rw [strings_injective hm, hf]
    | _ => simp [toJson, single] at h
  | filter c =>
    cases b with
    | filter c' =>
      have hc : c.toJson = c'.toJson := by simpa [toJson, single] using h
      rw [Criteria.eq_of_toJson_eq (ha c rfl) (hb c' rfl) hc]
    | _ => simp [toJson, single] at h

end FacetBody

namespace Request

variable {r r' : Request}

theorem listValue?_injective {encode : α → Json} (he : Function.Injective encode) :
    Function.Injective (listValue? encode) := by
  intro as bs h
  have hmap : as.map encode = bs.map encode := by
    cases as <;> cases bs <;> simp_all [listValue?]
  exact List.map_injective_iff.2 he hmap

/-- What a body says beside its criteria and facets. -/
theorem member?_of_ne (hq : "query" ≠ name) (hf : "filter" ≠ name) (hn : "facets" ≠ name)
    (r : Request) : r.toJson.member? name =
      (((if "from" = name then r.start.map .nat else none).or
        (if "size" = name then r.size.map .nat else none)).or
        (if "sort" = name then listValue? SortKey.toJson r.sort else none)).or
        (if "fields" = name then listValue? .string r.fields else none) := by
  have hcriteria := get?_criteriaMembers_of_ne hq hf r
  have hfacets := get?_facetMembers_of_ne hn r
  simp only [toJson, member?, Members.get?_append, get?_optionalMember, get?_listMember, hcriteria,
    hfacets, Option.or_none]

/-- Beside facets the filter is part of the query. -/
theorem get?_query_of_filter {f : Criteria} (hf : r.filter = some f)
    (hn : r.facets.isEmpty = false) : r.criteriaMembers.get? "query" = some (single "filtered"
      (.object [("query", (r.query.getD .matchAll).toJson), ("filter", f.toJson)])) := by
  simp [criteriaMembers, hf, hn, Members.get?]

theorem get?_query_of_none (hf : r.filter = none) :
    r.criteriaMembers.get? "query" = r.query.map Criteria.toJson := by
  simp [criteriaMembers, hf, get?_optionalMember]

theorem get?_query_of_isEmpty (hn : r.facets.isEmpty = true) :
    r.criteriaMembers.get? "query" = r.query.map Criteria.toJson := by
  cases hf : r.filter <;>
    simp [criteriaMembers, hf, hn, Members.get?_append, get?_optionalMember, Members.get?]

theorem get?_filter_of_isEmpty (hn : r.facets.isEmpty = true) :
    r.criteriaMembers.get? "filter" = r.filter.map Criteria.toJson := by
  cases hf : r.filter <;>
    simp [criteriaMembers, hf, hn, Members.get?_append, get?_optionalMember, Members.get?]

/-- The value under `facets`: no name repeats, so each facet has a member of its own. -/
theorem WellFormed.get?_facets (hr : r.WellFormed) : r.facetMembers.get? "facets" =
    if r.facets = [] then none
    else some (.object (r.facets.map fun f => (f.name, f.body.toJson))) := by
  have hnames : (r.facets.map fun f => (f.name, f.body.toJson)).map Prod.fst =
      r.facets.map Facet.name := by
    simp
  have hl := Members.ofList_of_nodup (hnames ▸ hr.names)
  cases hf : r.facets with
  | nil => simp [facetMembers, hf, Members.get?]
  | cons => simp_all [facetMembers, Members.get?]

theorem WellFormed.facets_eq (hr : r.WellFormed) (hr' : r'.WellFormed)
    (h : r.facetMembers.get? "facets" = r'.facetMembers.get? "facets") : r.facets = r'.facets := by
  rw [hr.get?_facets, hr'.get?_facets] at h
  apply eq_of_map_eq (f := fun f => (f.name, f.body.toJson))
  · rintro ⟨name, body⟩ hf ⟨name', body'⟩ hf' he
    obtain ⟨hn, hb⟩ := Prod.mk.inj he
    have hbody : body = body' :=
      FacetBody.eq_of_toJson_eq (hr.facets _ hf) (hr'.facets _ hf') hb
    exact congr_arg₂ Facet.mk hn hbody
  · split at h <;> split at h <;> simp_all

theorem WellFormed.wellFormed_getD (hr : r.WellFormed) :
    (r.query.getD .matchAll).WellFormed := by
  cases hq : r.query with
  | none => trivial
  | some c => exact hr.query c hq

/-- A query that a filter is part of is not taken for criteria alone. -/
theorem get?_query_ne {f : Criteria} (hc : r.filter = none) (hc' : r'.filter = some f)
    (hn : r'.facets.isEmpty = false) :
    r.criteriaMembers.get? "query" ≠ r'.criteriaMembers.get? "query" := by
  intro h
  rw [get?_query_of_none hc, get?_query_of_filter hc' hn] at h
  obtain ⟨c, -, he⟩ := Option.map_eq_some_iff.1 h
  exact c.toJson_ne_filtered _ he

theorem WellFormed.criteria_eq (hr : r.WellFormed) (hr' : r'.WellFormed)
    (hm : r.query ≠ some .matchAll) (hm' : r'.query ≠ some .matchAll)
    (hf : r.facets = r'.facets)
    (hquery : r.criteriaMembers.get? "query" = r'.criteriaMembers.get? "query")
    (hfilter : r.criteriaMembers.get? "filter" = r'.criteriaMembers.get? "filter") :
    r.query = r'.query ∧ r.filter = r'.filter := by
  -- Without facets the two parts stand side by side; with them a filter shows only in the query.
  cases hn : r.facets.isEmpty with
  | true =>
    have hn' : r'.facets.isEmpty = true := hf ▸ hn
    rw [get?_query_of_isEmpty hn, get?_query_of_isEmpty hn'] at hquery
    rw [get?_filter_of_isEmpty hn, get?_filter_of_isEmpty hn'] at hfilter
    constructor
    · exact Criteria.eq_of_map_toJson_eq hr.query hr'.query hquery
    · exact Criteria.eq_of_map_toJson_eq hr.filter hr'.filter hfilter
  | false =>
    have hn' : r'.facets.isEmpty = false := hf ▸ hn
    cases hc : r.filter with
    | none =>
      cases hc' : r'.filter with
      | none =>
        rw [get?_query_of_none hc, get?_query_of_none hc'] at hquery
        exact ⟨Criteria.eq_of_map_toJson_eq hr.query hr'.query hquery, rfl⟩
      | some f' => exact absurd hquery (get?_query_ne hc hc' hn')
    | some f =>
      cases hc' : r'.filter with
      | none => exact absurd hquery.symm (get?_query_ne hc' hc hn)
      | some f' =>
        rw [get?_query_of_filter hc hn, get?_query_of_filter hc' hn'] at hquery
        simp only [single, Option.some.injEq, Json.object.injEq, List.cons.injEq, Prod.mk.injEq,
          true_and, and_true] at hquery
        have hq : r.query.getD .matchAll = r'.query.getD .matchAll :=
          Criteria.eq_of_toJson_eq hr.wellFormed_getD hr'.wellFormed_getD hquery.1
        constructor
        · exact Criteria.eq_of_getD_eq hm hm' hq
        · rw [Criteria.eq_of_toJson_eq (hr.filter f hc) (hr'.filter f' hc') hquery.2]

/-- Requests with the same body differ in nothing but the type of their documents. -/
theorem WellFormed.eq_of_toJson_eq (hr : r.WellFormed) (hr' : r'.WellFormed)
    (hm : r.query ≠ some .matchAll) (hm' : r'.query ≠ some .matchAll)
    (h : r.toJson = r'.toJson) : r' = { r with docType := r'.docType } := by
  have hmember (name : String) : r.toJson.member? name = r'.toJson.member? name := by rw [h]
  have hstart : r.start.map Json.nat = r'.start.map Json.nat := by
    simpa [member?_of_ne] using hmember "from"
  have hsize : r.size.map Json.nat = r'.size.map Json.nat := by
    simpa [member?_of_ne] using hmember "size"
  have hsort : listValue? SortKey.toJson r.sort = listValue? SortKey.toJson r'.sort := by
    simpa [member?_of_ne] using hmember "sort"
  have hfields : listValue? Json.string r.fields = listValue? Json.string r'.fields := by
    simpa [member?_of_ne] using hmember "fields"
  have hfacets : r.facets = r'.facets := by
    apply hr.facets_eq hr'
    simpa only [member?_facets] using hmember "facets"
  obtain ⟨hquery, hfilter⟩ : r.query = r'.query ∧ r.filter = r'.filter := by
    apply hr.criteria_eq hr' hm hm' hfacets
    · simpa only [member?_criteria _ (.inl rfl)] using hmember "query"
    · simpa only [member?_criteria _ (.inr rfl)] using hmember "filter"
  rw [Option.map_injective nat_injective hstart, Option.map_injective nat_injective hsize,
    listValue?_injective SortKey.toJson_injective hsort,
    listValue?_injective string_injective hfields, hfacets, hquery, hfilter]

end Request

namespace Query

theorem wellFormed_plan {q : Query} {names : FieldNames} (hq : q.Settled)
    (h : q.plan names = .ok p) : p.request.WellFormed ∧ p.request.query ≠ some .matchAll := by
  obtain ⟨-, d, hruns, hfinish⟩ := plan_eq_ok_iff.1 h
  have hd := hruns.wellFormed hq (Draft.wellFormed_empty names)
  obtain ⟨-, hquery, -⟩ := Draft.finish_request hfinish
  constructor
  · exact hd.request hfinish
  · rw [hquery]
    exact Criteria.all?_ne_matchAll d.queries

/-- Plans whose requests have the same body, whatever the queries and the names they were made
with, ask for the same but for the type of the documents. -/
theorem request_eq_of_toJson_eq {q q' : Query} {names names' : FieldNames} (hq : q.Settled)
    (hq' : q'.Settled) (h : q.plan names = .ok p) (h' : q'.plan names' = .ok p')
    (hj : p.request.toJson = p'.request.toJson) :
    p'.request = { p.request with docType := p'.request.docType } := by
  obtain ⟨hr, hm⟩ := wellFormed_plan hq h
  obtain ⟨hr', hm'⟩ := wellFormed_plan hq' h'
  exact hr.eq_of_toJson_eq hr' hm hm' hj

/-- What costs much and is searched for a text, counted by zone. -/
def costlyRobots : Query :=
  ⟨"Robot", [.filter (some (.compare .gt (.field "cost") (.constant (.nat 5)))),
    .queryString (some "arm"), .groupBy (some (.field "zone")),
    .select (some (.aggregate .count none))]⟩

/-- The same of other documents, put otherwise. -/
def costlyParts : Query :=
  ⟨"Part", [.queryString (some "arm"),
    .filter (some (.compare .lt (.constant (.nat 5)) (.field "unit.cost"))),
    .groupBy (some (.field "unit.zone")), .select (some (.aggregate .count none))]⟩

theorem request_eq_of_toJson_eq_costly :
    ∃ p p', costlyRobots.plan ⟨⟨Member.name, id⟩, "unit"⟩ = .ok p ∧
      costlyParts.plan ⟨⟨Member.name, id⟩, ""⟩ = .ok p' ∧ p.request.facets ≠ [] ∧
      p'.request = { p.request with docType := "Part" } := by
  have hq : costlyRobots.Settled := by
    simp [costlyRobots, Settled, Step.Settled, Expr.Settled, Expr.field, Json.Settled, Json.nat]
  have hq' : costlyParts.Settled := by
    simp [costlyParts, Settled, Step.Settled, Expr.Settled, Expr.field, Json.Settled, Json.nat]
  refine ⟨_, _, rfl, rfl, List.cons_ne_nil _ _, ?_⟩
  exact request_eq_of_toJson_eq hq hq' rfl rfl rfl

end Query

end SearchQuery
