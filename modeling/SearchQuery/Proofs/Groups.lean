import SearchQuery.Proofs.RowCount

/-!
Which groups have a row. The facets together list the keys of the documents that some aggregate
takes, so a group is left out when all aggregates are counts that take none of its documents.
-/

namespace SearchQuery

/-- The values are listed, each of them once. -/
structure Lists (listed values : List Json) : Prop where
  distinct : listed.Pairwise fun v w => (v == w) = false
  sound : ∀ t ∈ listed, ∃ v ∈ values, (t == v) = true
  complete : ∀ v ∈ values, ∃ t ∈ listed, (t == v) = true

theorem mem_of_mem_firstMet {vs : List Json} (h : v ∈ firstMet vs) : v ∈ vs := by
  induction vs with
  | nil => cases h
  | cons first rest ih =>
    rcases List.mem_cons.1 h with rfl | hr
    · exact .head _
    · exact .tail _ (ih (List.mem_filter.1 hr).1)

theorem pairwise_firstMet (vs : List Json) :
    (firstMet vs).Pairwise fun v w => (v == w) = false := by
  induction vs with
  | nil => exact .nil
  | cons first rest ih =>
    rw [firstMet, List.pairwise_cons]
    constructor
    · intro w hw
      simpa using (List.mem_filter.1 hw).2
    · exact ih.filter _

/-- What a value equals is equalled by the first one of its kind. -/
theorem exists_mem_firstMet {vs : List Json} (ht : t ∈ vs) (h : (t == v) = true) :
    ∃ w ∈ firstMet vs, (w == v) = true := by
  induction vs with
  | nil => cases ht
  | cons first rest ih =>
    rcases List.mem_cons.1 ht with rfl | hr
    · exact ⟨t, .head _, h⟩
    · obtain ⟨w, hw, hwv⟩ := ih hr
      cases he : first == w with
      | true => exact ⟨first, .head _, Json.same_trans he hwv⟩
      | false => exact ⟨w, .tail _ (List.mem_filter.2 ⟨hw, by simp [he]⟩), hwv⟩

theorem Lists.congr (h : Lists listed values) (hv : ∀ v, v ∈ values ↔ v ∈ values') :
    Lists listed values' := by
  constructor
  · exact h.distinct
  · intro t ht
    obtain ⟨v, hm, htv⟩ := h.sound t ht
    exact ⟨v, (hv v).1 hm, htv⟩
  · intro v hm
    exact h.complete v ((hv v).2 hm)

theorem lists_firstMet {ts vs : List Json} (hs : ∀ t ∈ ts, ∃ v ∈ vs, (t == v) = true)
    (hc : ∀ v ∈ vs, ∃ t ∈ ts, (t == v) = true) : Lists (firstMet ts) vs := by
  constructor
  · exact pairwise_firstMet ts
  · intro t ht
    exact hs t (mem_of_mem_firstMet ht)
  · intro v hv
    obtain ⟨t, ht, h⟩ := hc v hv
    exact exists_mem_firstMet ht h

/-- The values of a field in some documents. -/
def Document.values (field : String) (docs : List Document) : List Json :=
  docs.filterMap (·.value? field)

theorem Document.mem_values_iff {field : String} {docs : List Document} {p : Document → Bool} :
    v ∈ values field (docs.filter p) ↔ ∃ d ∈ docs, p d = true ∧ d.value? field = some v := by
  rw [values, List.mem_filterMap]
  constructor
  · rintro ⟨d, hd, hv⟩
    obtain ⟨hm, hp⟩ := List.mem_filter.1 hd
    exact ⟨d, hm, hp, hv⟩
  · rintro ⟨d, hm, hp, hv⟩
    exact ⟨d, List.mem_filter.2 ⟨hm, hp⟩, hv⟩

/-- Each facet with buckets has one for each value of the field in the documents that it is computed
from. -/
def Response.ListsGroups (r : Reading) (docs : List Document) (field : String) (q : Request)
    (response : Response) : Prop :=
  ∀ f ∈ q.facets, f.body.hasBuckets = true → ∃ x, response.facet? f.name = some x ∧
    Lists (x.buckets.map Bucket.term)
      (Document.values field (docs.filter fun d => Engine.feeds r d q.toJson f.name))

namespace Expr

/-- Whether a cell is an aggregate that takes a document. -/
def isTaker (r : Reading) (names : FieldNames) (d : Document) : Expr → Bool
  | .aggregate a argument => a.takes r names d argument
  | _ => false

/-- Whether some aggregate of a projection takes a document; without aggregates all are taken. -/
def takes (r : Reading) (names : FieldNames) (d : Document) (e : Expr) : Bool :=
  !e.cells.any isAggregate || e.cells.any (isTaker r names d)

theorem any_isTaker_iff {cells : List Expr} :
    cells.any (isTaker r names d) = true ↔
      ∃ a argument, .aggregate a argument ∈ cells ∧ a.takes r names d argument = true := by
  rw [List.any_eq_true]
  constructor
  · rintro ⟨e, hm, he⟩
    cases e with
    | aggregate a argument => exact ⟨a, argument, hm, he⟩
    | _ => cases he
  · rintro ⟨a, argument, hm, ht⟩
    exact ⟨_, hm, ht⟩

end Expr

namespace Response

theorem exists_of_facet? {r : Response} (h : r.facet? name = some x) :
    ∃ members j, r.facets = some members ∧ members.get? name = some j ∧
      FacetResult.ofJson? j = some x := by
  obtain ⟨members, hm, h⟩ := Option.bind_eq_some_iff.1 h
  obtain ⟨j, hj, hx⟩ := Option.bind_eq_some_iff.1 h
  exact ⟨members, j, hm, hj, hx⟩

theorem isEmpty_of_facet? {r : Response} (h : r.facet? name = some x) :
    (r.facets.getD []).isEmpty = false := by
  obtain ⟨members, j, hm, hj, -⟩ := exists_of_facet? h
  cases members with
  | nil => cases hj
  | cons => rw [hm]; rfl

end Response

namespace FacetResult

/-- The terms of a result that was decoded are settled. -/
theorem settled_term {x : FacetResult} (hx : ofJson? j = some x) (hb : b ∈ x.buckets) :
    b.term.Settled := by
  have hs := settled_of_ofJson? hx
  cases x with
  | terms bs | termsStats bs =>
    have hitems := Json.settledItems_iff.1 hs.2.2.1
    exact (hitems _ (List.mem_map_of_mem hb)).2.1
  | statistical | filter => cases hb

theorem statistic?_of_absent {x : FacetResult} (h : ∀ b ∈ x.buckets, (b.term == t) = false)
    (s : Statistic) : x.statistic? (some t) s = none := by
  cases x with
  | terms bs | termsStats bs =>
    have hfind : bs.find? (·.term == t) = none := by
      rw [List.find?_eq_none]
      intro b hb
      rw [h b hb]
      exact Bool.false_ne_true
    rw [statistic?, hfind]
    rfl
  | statistical | filter => rfl

end FacetResult

namespace GroupedProjection

/-- The facet that lists the groups is only there without aggregates. -/
theorem requested_of_aggregate (h : ofExpr names key e = .ok p)
    (ha : .aggregate a argument ∈ e.cells) (hf : f ∈ p.facets) :
    Requested names key e.cells f.body := by
  obtain ⟨type, facets, cs, rfl, hx, hr⟩ := exists_ofColumns h
  have hfacets : withGroups key facets = facets := by
    rcases withGroups_eq key facets with hw | ⟨rfl, -⟩
    · exact hw
    · obtain ⟨i, hi⟩ := List.mem_iff_getElem?.1 ha
      obtain ⟨cell, -, hreads⟩ := exists_of_forall₂ hr hi
      cases hreads with
      | aggregate _ hg => cases hg
  rw [ofColumns, hfacets] at hf
  exact (hx.requested f hf).resolve_left List.not_mem_nil

theorem hasBuckets_facet (h : facet names (some k) a argument = .ok f) :
    f.body.hasBuckets = true := by
  cases a with
  | count =>
    obtain ⟨filter, -, h⟩ := bind_eq_ok_iff.1 h
    cases h
    rfl
  | _ =>
    cases argument with
    | none => cases h
    | some e =>
      obtain ⟨field, -, h⟩ := bind_eq_ok_iff.1 h
      cases h
      rfl

/-- All facets of groups with a key field have buckets. -/
theorem Lowers.hasBuckets (h : Lowers names (some k) e p) (hf : f ∈ p.facets) :
    f.body.hasBuckets = true := by
  rcases h.requested f hf with ⟨a, argument, g, -, hg, hb⟩ | ⟨k, -, rfl⟩
  · rw [hb]
    exact hasBuckets_facet hg
  · rfl

/-- An aggregate of the projection takes what its facet is narrowed to. -/
theorem takes_of_facet {e : Expr} (he : e.Settled) (hm : .aggregate a argument ∈ e.cells)
    (hf : facet names key a argument = .ok f) :
    (∀ c ∈ f.body.filter?, c.WellFormed) ∧
      ∀ r d, f.body.filter?.all (Criteria.holds r d) = a.takes r names d argument := by
  have hs : (Expr.aggregate a argument).Settled := he.of_mem_cells hm
  apply facet_filter _ hf
  rintro x rfl
  exact hs

/-- The facets together are computed from the documents that some aggregate takes. -/
theorem exists_facet_iff (h : ofExpr names (some k) e = .ok p) (he : e.Settled) (r : EngineReading)
    (d : Document) :
    (∃ f ∈ p.facets, f.body.filter?.all (Criteria.holds r.toReading d) = true) ↔
      e.takes r.toReading names d = true := by
  have hl := lowers_ofExpr h
  cases ha : e.cells.any Expr.isAggregate with
  | false =>
    have hnone : ∀ a argument, .aggregate a argument ∉ e.cells := by
      intro a argument hm
      rw [Expr.any_isAggregate.2 ⟨a, argument, hm⟩] at ha
      cases ha
    have htakes : e.takes r.toReading names d = true := by rw [Expr.takes, ha]; rfl
    obtain ⟨f, hf⟩ := List.exists_mem_of_ne_nil _ (hl.nonempty k rfl)
    rw [iff_true_right htakes]
    rcases hl.requested f hf with ⟨a, argument, -, hm, -⟩ | ⟨k, -, rfl⟩
    · exact absurd hm (hnone a argument)
    · exact ⟨_, hf, rfl⟩
  | true =>
    rw [Expr.takes, ha, Bool.not_true, Bool.false_or, Expr.any_isTaker_iff]
    constructor
    · rintro ⟨f, hf, hholds⟩
      obtain ⟨b, argument, hb⟩ := Expr.any_isAggregate.1 ha
      obtain ⟨a, argument, g, hm, hg, hbody⟩ := requested_of_aggregate h hb hf
      rw [hbody, (takes_of_facet he hm hg).2] at hholds
      exact ⟨a, argument, hm, hholds⟩
    · rintro ⟨a, argument, hm, ht⟩
      obtain ⟨i, hi⟩ := List.mem_iff_getElem?.1 hm
      obtain ⟨cell, -, hreads⟩ := exists_of_forall₂ hl.reads hi
      cases hreads with
      | @aggregate _ _ f g hf hg hs =>
        obtain ⟨hwf, hholds⟩ := takes_of_facet he hm hf
        refine ⟨g, hg, ?_⟩
        rw [hs.filter_holds (hl.wellFormed he hg) hwf, hholds, ht]

end GroupedProjection

/-- A facet is computed from the documents of the request that its own filter lets through. -/
theorem Engine.feeds_eq_finds {q : Request} (hq : q.WellFormed) (hf : f ∈ q.facets) (r : Reading)
    (d : Document) : feeds r d q.toJson f.name =
      (finds r d q.toJson && f.body.filter?.all (Criteria.holds r d)) := by
  rw [feeds_toJson hq hf, finds_toJson hq]

namespace GroupRows

variable {x : GroupRows} {response : Response}

theorem mem_terms_source :
    t ∈ ((x.bucketFacets.filterMap response.facet?).flatMap FacetResult.buckets).map Bucket.term ↔
      ∃ name ∈ x.bucketFacets, ∃ y, response.facet? name = some y ∧
        t ∈ y.buckets.map Bucket.term := by
  simp only [List.mem_map, List.mem_flatMap, List.mem_filterMap]
  constructor
  · rintro ⟨b, ⟨y, ⟨name, hn, hy⟩, hb⟩, rfl⟩
    exact ⟨name, hn, y, hy, b, hb, rfl⟩
  · rintro ⟨name, hn, y, hy, b, hb, rfl⟩
    exact ⟨b, ⟨y, ⟨name, hn, hy⟩, hb⟩, rfl⟩

theorem settled_of_mem_terms (ht : t ∈ x.terms response) : t.Settled := by
  rw [terms_eq] at ht
  obtain ⟨name, -, y, hy, ht⟩ := mem_terms_source.1 (mem_of_mem_firstMet ht)
  obtain ⟨b, hb, rfl⟩ := List.mem_map.1 ht
  obtain ⟨members, j, -, -, hj⟩ := Response.exists_of_facet? hy
  exact FacetResult.settled_term hj hb

/-- The terms of the rows are those that the facets list together. -/
theorem lists_terms {values : String → List Json}
    (h : ∀ name ∈ x.bucketFacets, ∃ y, response.facet? name = some y ∧
      Lists (y.buckets.map Bucket.term) (values name)) :
    Lists (x.terms response) (x.bucketFacets.flatMap values) := by
  rw [terms_eq]
  apply lists_firstMet
  · intro t ht
    obtain ⟨name, hn, y, hy, ht⟩ := mem_terms_source.1 ht
    obtain ⟨z, hz, hl⟩ := h name hn
    rw [hy, Option.some.injEq] at hz
    obtain ⟨v, hv, htv⟩ := hl.sound t (hz ▸ ht)
    exact ⟨v, List.mem_flatMap.2 ⟨name, hn, hv⟩, htv⟩
  · intro v hv
    obtain ⟨name, hn, hv⟩ := List.mem_flatMap.1 hv
    obtain ⟨y, hy, hl⟩ := h name hn
    obtain ⟨t, ht, htv⟩ := hl.complete v hv
    exact ⟨t, mem_terms_source.2 ⟨name, hn, y, hy, ht⟩, htv⟩

end GroupRows

namespace GroupedProjection

variable {q : Request} {response : Response} {docs : List Document}

theorem Lowers.bucketFacets_of_key (h : Lowers names (some k) e p) :
    p.rows.bucketFacets = p.facets.map Facet.name := by
  rw [h.bucketFacets, List.filter_eq_self.2]
  intro f hf
  exact h.hasBuckets hf

theorem lists_terms (hq : q.WellFormed) (hfacets : q.facets = p.facets)
    (h : ofExpr names (some k) e = .ok p) (he : e.Settled) (r : EngineReading)
    (hr : response.ListsGroups r.toReading docs k q) :
    Lists (p.rows.terms response) (Document.values k (docs.filter fun d =>
      Engine.finds r.toReading d q.toJson && e.takes r.toReading names d)) := by
  have hl := lowers_ofExpr h
  have hnames := hl.bucketFacets_of_key
  have hterms : Lists (p.rows.terms response) (p.rows.bucketFacets.flatMap fun name =>
      Document.values k (docs.filter fun d => Engine.feeds r.toReading d q.toJson name)) := by
    apply GroupRows.lists_terms
    intro name hn
    rw [hnames] at hn
    obtain ⟨f, hf, rfl⟩ := List.mem_map.1 hn
    exact hr f (hfacets ▸ hf) (hl.hasBuckets hf)
  apply hterms.congr
  intro v
  rw [hnames, List.flatMap_map, List.mem_flatMap]
  simp only [Document.mem_values_iff, Bool.and_eq_true]
  constructor
  · rintro ⟨f, hf, d, hd, hfeeds, hv⟩
    rw [Engine.feeds_eq_finds hq (hfacets ▸ hf), Bool.and_eq_true] at hfeeds
    exact ⟨d, hd, ⟨hfeeds.1, (exists_facet_iff h he r d).1 ⟨f, hf, hfeeds.2⟩⟩, hv⟩
  · rintro ⟨d, hd, ⟨hfinds, ht⟩, hv⟩
    obtain ⟨f, hf, hholds⟩ := (exists_facet_iff h he r d).2 ht
    refine ⟨f, hf, d, hd, ?_, hv⟩
    rw [Engine.feeds_eq_finds hq (hfacets ▸ hf), hfinds, hholds]
    rfl

/-- A count that takes no document of a group is reported as none. -/
theorem cellOf_count (hq : q.WellFormed) (hfacets : q.facets = p.facets)
    (h : ofExpr names (some k) e = .ok p) (he : e.Settled) (r : EngineReading)
    (hr : response.ListsGroups r.toReading docs k q) (ht : t.Settled) {i : Nat}
    (hi : e.cells[i]? = some (.aggregate .count argument))
    (hnone : ∀ d ∈ docs, ∀ v, Engine.finds r.toReading d q.toJson = true → d.value? k = some v →
      (t == v) = true → Aggregate.count.takes r.toReading names d argument = false) :
    e.cellOf (p.rows.row response (some t)) i = some (.nat 0) := by
  have hl := lowers_ofExpr h
  obtain ⟨cell, hcell, hreads⟩ := exists_of_forall₂ hl.reads hi
  rw [List.getElem?_map, Option.map_eq_some_iff] at hcell
  obtain ⟨c, hc, rfl⟩ := hcell
  rw [cellOf_row h hc]
  generalize c.cell = cell at hreads
  cases hreads with
  | @aggregate _ _ f g hf hg hs =>
    obtain ⟨x, hx, hlists⟩ := hr g (hfacets ▸ hg) (hl.hasBuckets hg)
    have habsent : ∀ b ∈ x.buckets, (b.term == t) = false := by
      intro b hb
      rw [Bool.eq_false_iff]
      intro hbt
      obtain ⟨v, hv, hbv⟩ := hlists.sound b.term (List.mem_map_of_mem hb)
      obtain ⟨d, hd, hfeeds, hv⟩ := Document.mem_values_iff.1 hv
      obtain ⟨hwf, hholds⟩ := takes_of_facet he (List.mem_of_getElem? hi) hf
      rw [Engine.feeds_eq_finds hq (hfacets ▸ hg), hs.filter_holds (hl.wellFormed he hg) hwf,
        hholds, Bool.and_eq_true] at hfeeds
      have htv : (t == v) = true := by
        obtain ⟨members, j, -, -, hj⟩ := Response.exists_of_facet? hx
        have hterm := FacetResult.settled_term hj hb
        exact Json.same_trans (Json.same_symm hterm ht hbt) hbv
      rw [hnone d hd v hfeeds.1 hv htv] at hfeeds
      cases hfeeds.2
    rw [Cell.value, hx, Option.bind_some, FacetResult.statistic?_of_absent habsent]
    rfl

end GroupedProjection

namespace Query

variable {names : FieldNames} {docType : String} {first : List Step} {m : Member}

/-- There is one row for each value of the key in the documents that some aggregate takes; these are
all documents when there is no aggregate, or one that takes all. A count that takes no document of a
group is reported as none, if the group has a row. -/
theorem rows_of_groups
    (hq : Settled ⟨docType, first ++ [.groupBy (some (.member m)), .select (some e)]⟩)
    (h : plan names ⟨docType, first ++ [.groupBy (some (.member m)), .select (some e)]⟩ = .ok p)
    {r : EngineReading} {docs : List Document} {response : Response}
    (hr : response.ListsGroups r.toReading docs (names.field m) p.request) :
    ∃ x, p.extractor = .rows x ∧
      p.extractor.extract (some response) =
        .ok (.array ((x.terms response).map fun t => x.row response (some t))) ∧
      Lists (x.terms response) (Document.values (names.field m) (docs.filter fun d =>
        Engine.finds r.toReading d p.request.toJson && e.takes r.toReading names d)) ∧
      ∀ t ∈ x.terms response,
        (∀ i : Nat, e.cells[i]? = some .groupKey →
          e.cellOf (x.row response (some t)) i = some t) ∧
        ∀ (i : Nat) (predicate : Expr),
          e.cells[i]? = some (.aggregate .count (some predicate)) →
          (∀ d ∈ docs, ∀ v, Engine.finds r.toReading d p.request.toJson = true →
            d.value? (names.field m) = some v → (t == v) = true →
            predicate.holds r.toReading names d = false) →
          e.cellOf (x.row response (some t)) i = some (.nat 0) := by
  obtain ⟨-, draft, hruns, hfinish⟩ := plan_eq_ok_iff.1 h
  have hwf := (hruns.wellFormed hq (Draft.wellFormed_empty names)).request hfinish
  have he : e.Settled := hq _ (List.mem_append_right _ (.tail _ (.head _)))
  have hplan : plan names ⟨docType, first ++ .groupBy (some (.member m)) :: .select (some e) ::
      [].map .take⟩ = .ok p := h
  obtain ⟨-, d, key, g, -, -, -, hk, hg, rfl⟩ := plan_grouped_iff.1 hplan
  cases hk
  have hl := GroupedProjection.lowers_ofExpr hg
  refine ⟨g.rows, rfl, ?_, GroupedProjection.lists_terms hwf rfl hg he r hr, ?_⟩
  · obtain ⟨f, hf⟩ := List.exists_mem_of_ne_nil _ (hl.nonempty _ rfl)
    obtain ⟨x, hx, -⟩ := hr f hf (hl.hasBuckets hf)
    have hterms : g.rows.rowTerms response = (g.rows.terms response).map some := by
      rw [GroupRows.rowTerms_of_grouped hl.grouped, Response.isEmpty_of_facet? hx,
        if_neg Bool.false_ne_true]
    rw [Extractor.extract, g.rows.extract_eq, hterms, List.map_map]
    rfl
  · intro t ht
    constructor
    · intro i hi
      exact GroupedProjection.cellOf_groupKey hg hi response (some t)
    · intro i predicate hi hnone
      have hsettled := GroupRows.settled_of_mem_terms ht
      exact GroupedProjection.cellOf_count hwf rfl hg he r hr hsettled hi hnone

/-- How many robots of a zone are armed, and how many are named. -/
def equipment : Query :=
  ⟨"Robot", [.groupBy (some (.field "zone")), .select (some (.record [("zone", .groupKey),
    ("armed", .aggregate .count (some (.isNotNull (.field "armed")))),
    ("named", .aggregate .count (some (.isNotNull (.field "name"))))]))]⟩

/-- One robot is armed, one is named, and one is neither. -/
def robots : List Document :=
  [.ofMembers [("zone", .string "a"), ("armed", .bool true)] (by simp [Json.isNull, Json.Settled]),
    .ofMembers [("zone", .string "b"), ("name", .string "c")] (by simp [Json.isNull, Json.Settled]),
    .ofMembers [("zone", .string "c")] (by simp [Json.isNull, Json.Settled])]

/-- Each facet lists the zone of the only robot that it counts. -/
def ofRobots : Response :=
  { facets := some [
      ("count", (FacetResult.terms [⟨.string "a", [("count", .nat 1)]⟩]).toJson),
      ("count_1", (FacetResult.terms [⟨.string "b", [("count", .nat 1)]⟩]).toJson)] }

theorem listsGroups_ofRobots (h : equipment.plan ⟨⟨Member.name, id⟩, ""⟩ = .ok p) (r : Reading) :
    ofRobots.ListsGroups r robots "zone" p.request := by
  have hone (v : Json) (hv : (v == v) = true) : Lists [v] [v] := by
    constructor
    · exact List.pairwise_singleton ..
    · simp [hv]
    · simp [hv]
  cases h
  intro f hf _
  rcases List.mem_cons.1 hf with rfl | hf
  · exact ⟨_, rfl, hone (.string "a") rfl⟩
  · cases List.mem_singleton.1 hf
    exact ⟨_, rfl, hone (.string "b") rfl⟩

theorem rows_of_groups_equipment : ∃ p x, equipment.plan ⟨⟨Member.name, id⟩, ""⟩ = .ok p ∧
    p.extractor = .rows x ∧ x.terms ofRobots = [.string "a", .string "b"] ∧
    p.extractor.extract (some ofRobots) =
      .ok (.array ((x.terms ofRobots).map fun t => x.row ofRobots (some t))) ∧
    Lists (x.terms ofRobots) (Document.values "zone" (robots.filter fun d =>
      Engine.finds EngineReading.literal.toReading d p.request.toJson &&
        (Expr.record [("zone", .groupKey),
          ("armed", .aggregate .count (some (.isNotNull (.field "armed")))),
          ("named", .aggregate .count (some (.isNotNull (.field "name"))))]).takes
            EngineReading.literal.toReading ⟨⟨Member.name, id⟩, ""⟩ d)) ∧
    (x.row ofRobots (some (.string "a"))).member? "named" = some (.nat 0) := by
  have hq : equipment.Settled := by
    simp [equipment, Settled, Step.Settled, Expr.Settled, Expr.SettledFields, Expr.field,
      Expr.isNotNull, Json.Settled]
  have h : plan ⟨⟨Member.name, id⟩, ""⟩ ⟨"Robot", [] ++ [.groupBy (some (.member (.single "zone"))),
      .select (some (.record [("zone", .groupKey),
        ("armed", .aggregate .count (some (.isNotNull (.field "armed")))),
        ("named", .aggregate .count (some (.isNotNull (.field "name"))))]))]⟩ = .ok _ := rfl
  have hr := listsGroups_ofRobots h EngineReading.literal.toReading
  obtain ⟨x, hx, hrows, hlists, hcells⟩ := rows_of_groups hq h hr
  cases hx
  have ha := (hcells (.string "a") (.head _)).2 2 _ rfl
  refine ⟨_, _, rfl, rfl, rfl, hrows, hlists, ha ?_⟩
  intro d hd v _ hv heq
  rcases List.mem_cons.1 hd with rfl | hd
  · rfl
  · rcases List.mem_cons.1 hd with rfl | hd
    · cases hv
      cases heq
    · cases List.mem_singleton.1 hd
      cases hv
      cases heq

/-- No facet lists the zone of the robot that is neither armed nor named, though it is found. -/
theorem equipment_lacks_zone : ∃ p x, equipment.plan ⟨⟨Member.name, id⟩, ""⟩ = .ok p ∧
    p.extractor = .rows x ∧
    ofRobots.ListsGroups EngineReading.literal.toReading robots "zone" p.request ∧
    p.extractor.extract (some ofRobots) = .ok (.array [
      .object [("zone", .string "a"), ("armed", .nat 1), ("named", .nat 0)],
      .object [("zone", .string "b"), ("armed", .nat 0), ("named", .nat 1)]]) ∧
    ¬Lists (x.terms ofRobots) (Document.values "zone" (robots.filter fun d =>
      Engine.finds EngineReading.literal.toReading d p.request.toJson)) := by
  refine ⟨_, _, rfl, rfl, listsGroups_ofRobots rfl _, rfl, ?_⟩
  intro h
  obtain ⟨t, ht, hc⟩ := h.complete (.string "c") (.tail _ (.tail _ (.head _)))
  rcases List.mem_cons.1 ht with rfl | ht
  · cases hc
  · cases List.mem_singleton.1 ht
    cases hc

end Query

end SearchQuery
