import SearchQuery.Proofs.Engine
import SearchQuery.Proofs.Sharing

/-!
The request of a query finds the documents that its operations ask for, and computes each facet from
those that an aggregate takes.
-/

namespace SearchQuery

/-- Whether an operation keeps a document; orderings, pages and projections keep all. -/
def Step.selects (r : Reading) (names : FieldNames) (d : Document) : Step → Bool
  | .filter (some e) | .query (some e) | .execute _ (some e) => e.holds r names d
  | .queryString (some text) => r.text text d
  | _ => true

def Query.selects (r : Reading) (names : FieldNames) (d : Document) (q : Query) : Bool :=
  q.steps.all (Step.selects r names d)

/-- Whether an aggregate takes a document; a count may be of those that satisfy a predicate. -/
def Aggregate.takes (r : Reading) (names : FieldNames) (d : Document) :
    Aggregate → Option Expr → Bool
  | .count, some e => e.holds r names d
  | _, _ => true

theorem Expr.Settled.of_mem_cells {e x : Expr} (he : e.Settled) (hx : x ∈ e.cells) : x.Settled := by
  cases e with
  | record fields =>
    obtain ⟨m, hm, rfl⟩ := List.mem_map.1 hx
    exact SettledFields.mem he hm
  | _ =>
    rw [List.mem_singleton.1 hx]
    exact he

namespace Criteria

/-- The conjunction may be left out where it holds of every document. -/
theorem all?_spec {cs : List Criteria} (h : ∀ c ∈ cs, c.WellFormed) :
    (∀ c ∈ all? cs, c.WellFormed) ∧
      ∀ r d, (all? cs).all (holds r d) = cs.all (holds r d) := by
  rw [all?]
  split
  next ha =>
    refine ⟨by simp, fun r d => ?_⟩
    rw [← holds_all, ha]
    rfl
  next c ha =>
    refine ⟨?_, fun r d => holds_all r d cs⟩
    rintro c ⟨⟩
    exact wellFormed_all h

end Criteria

namespace GroupedProjection

/-- The facet that an aggregate asks for is narrowed to the documents which it takes. -/
theorem facet_filter (hs : ∀ e ∈ argument, e.Settled) (h : facet names key a argument = .ok f) :
    (∀ c ∈ f.body.filter?, c.WellFormed) ∧
      ∀ r d, f.body.filter?.all (Criteria.holds r d) = a.takes r names d argument := by
  cases argument with
  | none =>
    cases a with
    | count =>
      cases key with
      | none =>
        cases h
        exact ⟨by rintro c ⟨⟩; trivial, fun _ _ => rfl⟩
      | some k =>
        cases h
        exact ⟨by rintro c ⟨⟩, fun _ _ => rfl⟩
    | _ => cases h
  | some e =>
    cases a with
    | count =>
      obtain ⟨filter, hf, h⟩ := bind_eq_ok_iff.1 h
      rw [Option.mapM_some] at hf
      obtain ⟨c, hc, hf⟩ := bind_eq_ok_iff.1 hf
      cases hf
      have hwf := Expr.wellFormed_criteria (hs e rfl) hc
      have hh := Expr.holds_criteria (hs e rfl) hc
      cases key <;> cases h <;> exact ⟨by rintro c ⟨⟩; exact hwf, hh⟩
    | _ =>
      obtain ⟨field, hf, h⟩ := bind_eq_ok_iff.1 h
      cases key <;> cases h <;> exact ⟨by rintro c ⟨⟩, fun _ _ => rfl⟩

/-- All facets of a projection are well formed, whichever aggregates share them. -/
theorem Lowers.wellFormed (hp : Lowers names key e p) (he : e.Settled) (hf : f ∈ p.facets) :
    ∀ c ∈ f.body.filter?, c.WellFormed := by
  rcases hp.requested f hf with ⟨a, argument, g, hm, hg, hb⟩ | ⟨k, rfl, rfl⟩
  · have hs : (Expr.aggregate a argument).Settled := he.of_mem_cells hm
    rw [hb]
    refine (facet_filter ?_ hg).1
    rintro x rfl
    exact hs
  · simp [counting, FacetBody.filter?]

end GroupedProjection

theorem Expr.mapM_criteria_toList {predicate : Option Expr}
    (h : predicate.toList.mapM (criteria names) = .ok cs) :
    predicate = none ∧ cs = [] ∨
      ∃ e c, predicate = some e ∧ e.criteria names = .ok c ∧ cs = [c] := by
  cases predicate with
  | none =>
    cases h
    exact .inl ⟨rfl, rfl⟩
  | some e =>
    rw [Option.toList, List.mapM_cons] at h
    obtain ⟨c, hc, h⟩ := bind_eq_ok_iff.1 h
    cases h
    exact .inr ⟨e, c, rfl, hc, rfl⟩

namespace Draft

/-- What the operations so far have collected is well formed. -/
structure WellFormed (names : FieldNames) (d : Draft) : Prop where
  filters : ∀ c ∈ d.filters, c.WellFormed
  queries : ∀ c ∈ d.queries, c.WellFormed
  grouped : ∀ p limit, d.stage = .grouped p limit →
    ∃ key e, e.Settled ∧ GroupedProjection.ofExpr names key e = .ok p

theorem wellFormed_empty (names : FieldNames) : ({} : Draft).WellFormed names :=
  ⟨by simp, by simp, by rintro p limit ⟨⟩⟩

/-- Whether a document satisfies all that was collected. -/
def selects (r : Reading) (doc : Document) (d : Draft) : Bool :=
  d.filters.all (Criteria.holds r doc) && d.queries.all (Criteria.holds r doc)

theorem Next.wellFormed (h : Next names d s d') (hs : s.Settled) (hd : d.WellFormed names) :
    d'.WellFormed names := by
  cases h with
  | filter _ hc =>
    refine ⟨?_, hd.queries, hd.grouped⟩
    simpa [or_imp, forall_and] using ⟨hd.filters, Expr.wellFormed_criteria hs hc⟩
  | query _ hc =>
    refine ⟨hd.filters, ?_, hd.grouped⟩
    simpa [or_imp, forall_and] using ⟨hd.queries, Expr.wellFormed_criteria hs hc⟩
  | queryString =>
    refine ⟨hd.filters, ?_, hd.grouped⟩
    simpa [or_imp, forall_and, Criteria.WellFormed] using hd.queries
  | orderBy | orderByScore | skip | take => exact ⟨hd.filters, hd.queries, hd.grouped⟩
  | groupBy | select | executeSelected => exact ⟨hd.filters, hd.queries, by rintro p limit ⟨⟩⟩
  | execute _ hc =>
    refine ⟨?_, hd.queries, by rintro p limit ⟨⟩⟩
    rcases Expr.mapM_criteria_toList hc with ⟨rfl, rfl⟩ | ⟨e, c, rfl, he, rfl⟩
    · simpa using hd.filters
    · simpa [or_imp, forall_and] using ⟨hd.filters, Expr.wellFormed_criteria hs he⟩
  | selectGroups _ hp =>
    refine ⟨hd.filters, hd.queries, ?_⟩
    rintro p limit ⟨⟩
    exact ⟨_, _, hs, hp⟩
  | takeGroups hg =>
    refine ⟨hd.filters, hd.queries, ?_⟩
    rintro p limit ⟨⟩
    exact hd.grouped _ _ hg

/-- Each operation adds its own condition, and no other one. -/
theorem Next.selects (h : Next names d s d') (hs : s.Settled) (r : Reading) (doc : Document) :
    d'.selects r doc = (d.selects r doc && s.selects r names doc) := by
  cases h with
  | filter _ hc =>
    have hh := Expr.holds_criteria hs hc r doc
    simp [Draft.selects, Step.selects, hh, Bool.and_right_comm]
  | query _ hc =>
    have hh := Expr.holds_criteria hs hc r doc
    simp [Draft.selects, Step.selects, hh, Bool.and_assoc]
  | queryString => simp [Draft.selects, Step.selects, Criteria.holds, Bool.and_assoc]
  | orderBy | orderByScore | skip | take | groupBy | select | executeSelected | selectGroups
  | takeGroups => exact (Bool.and_true _).symm
  | execute _ hc =>
    rcases Expr.mapM_criteria_toList hc with ⟨rfl, rfl⟩ | ⟨e, c, rfl, he, rfl⟩
    · simp [Draft.selects, Step.selects]
    · have hh := Expr.holds_criteria hs he r doc
      simp [Draft.selects, Step.selects, hh, Bool.and_right_comm]

theorem Runs.wellFormed (h : Runs names d steps d') (hs : ∀ s ∈ steps, s.Settled)
    (hd : d.WellFormed names) : d'.WellFormed names := by
  induction h with
  | nil => exact hd
  | cons hn _ ih =>
    rw [List.forall_mem_cons] at hs
    exact ih hs.2 (hn.wellFormed hs.1 hd)

theorem Runs.selects (h : Runs names d steps d') (hs : ∀ s ∈ steps, s.Settled) (r : Reading)
    (doc : Document) :
    d'.selects r doc = (d.selects r doc && steps.all (Step.selects r names doc)) := by
  induction h with
  | nil => simp
  | cons hn _ ih =>
    rw [List.forall_mem_cons] at hs
    rw [ih hs.2, hn.selects hs.1, List.all_cons, Bool.and_assoc]

/-- The projection of groups that a draft has, when it has one, is that of `e`. -/
def Groups (names : FieldNames) (e : Expr) (d : Draft) : Prop :=
  ∃ key p limit, d.stage = .grouped p limit ∧ GroupedProjection.ofExpr names key e = .ok p

theorem Next.groups (h : Next names d s d') (hd : d.Groups names e) : d'.Groups names e := by
  obtain ⟨key, p, limit, hp, he⟩ := hd
  cases h with
  | takeGroups hg =>
    rw [hp] at hg
    cases hg
    exact ⟨key, p, _, rfl, he⟩
  | skip hg | take hg => simp [hp] at hg
  | filter hg | query hg | queryString hg | orderBy hg | orderByScore hg | groupBy hg | select hg
  | execute hg | executeSelected hg | selectGroups hg => simp [hp] at hg

theorem Runs.groups (h : Runs names d steps d') (hd : d.Groups names e) : d'.Groups names e :=
  h.keeps Next.groups hd

end Draft

theorem forall₂_of_mapM {f : α → Except ε β} {xs : List α} (h : xs.mapM f = .ok ys) :
    List.Forall₂ (fun x y => f x = .ok y) xs ys := by
  induction xs generalizing ys with
  | nil =>
    cases h
    exact .nil
  | cons first rest ih =>
    rw [List.mapM_cons] at h
    obtain ⟨y, hy, h⟩ := bind_eq_ok_iff.1 h
    obtain ⟨tail, ht, h⟩ := bind_eq_ok_iff.1 h
    cases h
    exact .cons hy (ih ht)

theorem exists_ok_of_mapM {f : α → Except ε β} {xs : List α} (h : xs.mapM f = .ok ys)
    (hx : x ∈ xs) : ∃ y, f x = .ok y := by
  obtain ⟨i, hi⟩ := List.mem_iff_getElem?.1 hx
  obtain ⟨y, -, hy⟩ := exists_of_forall₂ (forall₂_of_mapM h) hi
  exact ⟨y, hy⟩

theorem Projection.aggregate_notMem (h : ofExpr names e = .ok p) :
    .aggregate a argument ∉ e.cells := by
  intro hm
  cases e with
  | member => cases List.mem_singleton.1 hm
  | record fields =>
    obtain ⟨members, hf, _⟩ := bind_eq_ok_iff.1 h
    obtain ⟨m, hm, he⟩ := List.mem_map.1 hm
    obtain ⟨y, hy⟩ := exists_ok_of_mapM hf hm
    obtain ⟨field, hf, _⟩ := bind_eq_ok_iff.1 hy
    rw [he] at hf
    cases hf
  | _ => cases h

namespace Draft

/-- After a projection with aggregates the draft has groups for good. -/
theorem Runs.groups_of_mem (h : Runs names d steps d') (hs : .select (some e) ∈ steps)
    (ha : .aggregate a argument ∈ e.cells) : d'.Groups names e := by
  induction h with
  | nil => cases hs
  | cons hn hr ih =>
    rcases List.mem_cons.1 hs with rfl | hm
    · cases hn with
      | select _ hp => exact absurd ha (Projection.aggregate_notMem hp)
      | selectGroups _ hp => exact hr.groups ⟨_, _, _, rfl, hp⟩
    · exact ih hm

/-- Every plan asks for the criteria that were collected, and for the facets of the groups. -/
theorem finish_request (h : finish d source docType = .ok p) :
    p.request.filter = Criteria.all? d.filters ∧ p.request.query = Criteria.all? d.queries ∧
      p.request.sort = d.sort ∧ (p.request.facets = [] ∨ ∃ g limit, d.stage = .grouped g limit ∧
        p.request.facets = (g.limitedTo limit).facets) := by
  rw [finish] at h
  split at h
  · cases h
    exact ⟨rfl, rfl, rfl, .inl rfl⟩
  · cases h
    exact ⟨rfl, rfl, rfl, .inl rfl⟩
  next terminal g hd =>
    cases terminal with
    | first | count | any =>
      cases h
      exact ⟨rfl, rfl, rfl, .inl rfl⟩
  · cases h
  next g limit hd =>
    cases h
    exact ⟨rfl, rfl, rfl, .inr ⟨g, limit, hd, rfl⟩⟩

theorem finish_grouped {d : Draft} {limit : Option Nat} (hd : d.stage = .grouped g limit)
    (source docType : String) :
    d.finish source docType =
      .ok ⟨d.facetRequest docType (g.limitedTo limit), .rows (g.limitedTo limit).rows⟩ := by
  rw [finish, hd]
  rfl

/-- The facets of a request have names of their own. -/
theorem Lowered.nodup (hd : d.Lowered names) (h : finish d source docType = .ok p) :
    (p.request.facets.map Facet.name).Nodup := by
  obtain ⟨-, -, -, hnil | ⟨g, limit, hg, he⟩⟩ := finish_request h
  · simp [hnil]
  · obtain ⟨key, e, hp⟩ := hd g limit hg
    rw [he, GroupedProjection.names_limitedTo]
    exact (GroupedProjection.lowers_ofExpr hp).nodup

theorem WellFormed.lowered {d : Draft} (hd : d.WellFormed names) : d.Lowered names := by
  intro g limit hg
  obtain ⟨key, e, -, hp⟩ := hd.grouped g limit hg
  exact ⟨key, e, hp⟩

theorem WellFormed.request (hd : d.WellFormed names) (h : finish d source docType = .ok p) :
    p.request.WellFormed := by
  obtain ⟨hf, hq, -, hfacets⟩ := finish_request h
  refine ⟨hf ▸ (Criteria.all?_spec hd.filters).1, hq ▸ (Criteria.all?_spec hd.queries).1, ?_,
    hd.lowered.nodup h⟩
  rcases hfacets with hnil | ⟨g, limit, hg, he⟩
  · simp [hnil]
  · obtain ⟨key, e, hs, hp⟩ := hd.grouped g limit hg
    intro f hm
    rw [he, GroupedProjection.facets_limitedTo] at hm
    obtain ⟨b, hb, rfl⟩ := List.mem_map.1 hm
    rw [FacetBody.filter?_limitedTo]
    exact (GroupedProjection.lowers_ofExpr hp).wellFormed hs hb

theorem WellFormed.finds (hd : d.WellFormed names) (h : finish d source docType = .ok p)
    (r : Reading) (doc : Document) : Engine.finds r doc p.request.toJson = d.selects r doc := by
  obtain ⟨hf, hq, _⟩ := finish_request h
  rw [Engine.finds_toJson (hd.request h), hf, hq, (Criteria.all?_spec hd.filters).2,
    (Criteria.all?_spec hd.queries).2, Draft.selects, Bool.and_comm]

/-- The facet that the column of an aggregate reads is computed from what the aggregate takes. -/
theorem WellFormed.feeds (hd : d.WellFormed names) (hg : d.Groups names e) (he : e.Settled)
    (h : finish d source docType = .ok p) {i : Nat} {a : Aggregate} {argument : Option Expr}
    (hi : e.cells[i]? = some (.aggregate a argument)) (r : EngineReading) (doc : Document) :
    ∃ x n, p.extractor = .rows x ∧
      (x.columns[i]?).map Column.cell = some (.statistic n (GroupedProjection.statistic a)) ∧
      Engine.feeds r.toReading doc p.request.toJson n =
        (d.selects r.toReading doc && a.takes r.toReading names doc argument) := by
  obtain ⟨key, g, limit, hstage, hp⟩ := hg
  have hwf := hd.request h
  obtain ⟨hf, hq, _⟩ := finish_request h
  have hl := GroupedProjection.lowers_ofExpr hp
  obtain ⟨cell, hcell, hreads⟩ := exists_of_forall₂ hl.reads hi
  cases hreads with
  | @aggregate a argument f b hfacet hb hs =>
    rw [finish_grouped hstage] at h
    cases h
    refine ⟨_, b.name, rfl, ?_, ?_⟩
    · rw [GroupedProjection.rows_limitedTo, ← List.getElem?_map]
      exact hcell
    · have hmem : ⟨b.name, b.body.limitedTo limit⟩ ∈ (g.limitedTo limit).facets := by
        rw [GroupedProjection.facets_limitedTo]
        exact List.mem_map_of_mem hb
      have ha : (Expr.aggregate a argument).Settled := he.of_mem_cells (List.mem_of_getElem? hi)
      have hsettled : ∀ x ∈ argument, x.Settled := by
        rintro x rfl
        exact ha
      obtain ⟨hwff, hholds⟩ := GroupedProjection.facet_filter hsettled hfacet
      have hfeeds := Engine.feeds_toJson hwf hmem r.toReading doc
      rw [FacetBody.filter?_limitedTo, hs.filter_holds (hl.wellFormed he hb) hwff, hholds, hf, hq,
        (Criteria.all?_spec hd.filters).2, (Criteria.all?_spec hd.queries).2] at hfeeds
      rw [hfeeds, Draft.selects, Bool.and_comm (d.queries.all _)]

end Draft

namespace Query

/-- The request finds exactly the documents that all operations keep, and the facet of an aggregate
is computed from those of them that the aggregate takes. -/
theorem plan_selects {q : Query} {names : FieldNames} (hq : q.Settled) (h : q.plan names = .ok p)
    (r : EngineReading) (d : Document) :
    Engine.finds r.toReading d p.request.toJson = q.selects r.toReading names d ∧
      ∀ e, .select (some e) ∈ q.steps → ∀ (i : Nat) (a : Aggregate) (argument : Option Expr),
        e.cells[i]? = some (.aggregate a argument) → ∃ x n, p.extractor = .rows x ∧
          (x.columns[i]?).map Column.cell = some (.statistic n (GroupedProjection.statistic a)) ∧
          Engine.feeds r.toReading d p.request.toJson n =
            (q.selects r.toReading names d && a.takes r.toReading names d argument) := by
  obtain ⟨-, draft, hruns, hfinish⟩ := plan_eq_ok_iff.1 h
  have hwf := hruns.wellFormed hq (Draft.wellFormed_empty names)
  have hselects : draft.selects r.toReading d = q.selects r.toReading names d :=
    hruns.selects hq r.toReading d
  rw [← hselects]
  refine ⟨hwf.finds hfinish r.toReading d, fun e he i a argument hi => ?_⟩
  have hgroups := hruns.groups_of_mem he (List.mem_of_getElem? hi)
  exact hwf.feeds hgroups (hq _ he) hfinish hi r d

/-- All robots that cost more and are found by a text, and the armed ones of them, per zone. -/
def armedOfAll : Query :=
  ⟨"Robot", [.filter (some (.compare .gt (.field "cost") (.constant (.nat 5)))),
    .queryString (some "arm"), .groupBy (some (.field "zone")),
    .select (some (.record [("all", .aggregate .count none),
      ("armed", .aggregate .count (some (.field "armed")))]))]⟩

/-- A count of some documents shares no facet with the one of all, and a text is searched for. -/
theorem plan_selects_grouped :
    ∃ p x, armedOfAll.plan ⟨⟨Member.name, id⟩, ""⟩ = .ok p ∧ p.extractor = .rows x ∧
      x.columns.map Column.cell = [.statistic "count" .count, .statistic "count_1" .count] ∧
      ∀ (r : EngineReading) (d : Document),
        Engine.finds r.toReading d p.request.toJson =
          armedOfAll.selects r.toReading ⟨⟨Member.name, id⟩, ""⟩ d ∧
        Engine.feeds r.toReading d p.request.toJson "count" =
          armedOfAll.selects r.toReading ⟨⟨Member.name, id⟩, ""⟩ d ∧
        Engine.feeds r.toReading d p.request.toJson "count_1" =
          (armedOfAll.selects r.toReading ⟨⟨Member.name, id⟩, ""⟩ d &&
            (Expr.field "armed").holds r.toReading ⟨⟨Member.name, id⟩, ""⟩ d) := by
  have hq : armedOfAll.Settled := by
    simp [armedOfAll, Settled, Step.Settled, Expr.Settled, Expr.SettledFields, Expr.field,
      Json.Settled, Json.nat]
  have h : armedOfAll.plan ⟨⟨Member.name, id⟩, ""⟩ = .ok _ := rfl
  refine ⟨_, _, rfl, rfl, rfl, fun r d => ?_⟩
  obtain ⟨hfinds, hfeeds⟩ := plan_selects hq h r d
  have hselect := hfeeds _ (.tail _ (.tail _ (.tail _ (.head _))))
  obtain ⟨x, all, hx, hall, hfed⟩ := hselect 0 .count none rfl
  obtain ⟨x', armed, hx', harmed, hfed'⟩ := hselect 1 .count (some (.field "armed")) rfl
  cases hx
  cases hx'
  cases hall
  cases harmed
  exact ⟨hfinds, hfed.trans (Bool.and_true _), hfed'⟩

end Query

end SearchQuery
