import SearchQuery.Proofs.Pairing
import SearchQuery.Proofs.Requested

/-!
A namespace renames the fields of a query. The plans with and without it are the same in all else
but the names of facets.
-/

namespace SearchQuery

def Extractor.renamed (ρ σ : String → String) : Extractor → Extractor
  | hits x => hits { x with projection := x.projection.renamed ρ }
  | page x => page { x with projection := x.projection.renamed ρ }
  | rows x => rows (x.renamed σ)

/-- The request over renamed fields, with other names of its facets and other sort keys. -/
def Request.renamed (ρ σ : String → String) (sort : List SortKey) (r : Request) : Request :=
  { r with
    filter := r.filter.map (Criteria.renamed ρ)
    query := r.query.map (Criteria.renamed ρ)
    facets := r.facets.map (Facet.renamed ρ σ)
    sort
    fields := r.fields.map ρ }

def Plan.renamed (ρ σ : String → String) (sort : List SortKey) (p : Plan) : Plan :=
  ⟨p.request.renamed ρ σ sort, p.extractor.renamed ρ σ⟩

variable {names names' : FieldNames} {ρ : String → String}

/-- Stages that a chain comes to under two namings. -/
inductive Stage.Paired (ρ : String → String) : Stage → Stage → Prop
  | documents : Paired ρ .documents .documents
  | selected (p : Projection) : Paired ρ (.selected p) (.selected (p.renamed ρ))
  | executed (t : Terminal) (p : Projection) :
    Paired ρ (.executed t p) (.executed t (p.renamed ρ))
  | grouping (key : Option String) : Paired ρ (.grouping key) (.grouping (key.map ρ))
  | grouped (σ : String → String) (g : GroupedProjection) (limit : Option Nat)
    (hσ : Set.InjOn σ {n | n ∈ g.facets.map Facet.name}) :
    Paired ρ (.grouped g limit) (.grouped (g.renamed ρ σ) limit)

namespace Draft

/-- Drafts that a chain comes to under two namings. -/
structure Paired (ρ : String → String) (d d' : Draft) : Prop where
  filters : d'.filters = d.filters.map (Criteria.renamed ρ)
  queries : d'.queries = d.queries.map (Criteria.renamed ρ)
  start : d'.start = d.start
  limit : d'.limit = d.limit
  stage : d.stage.Paired ρ d'.stage

variable {d d' : Draft}

theorem alike_groupKey (hn : names.Renames names' ρ) (e : Expr) :
    Alike ρ (fun k k' => k' = k.map ρ) (groupKey names e) (groupKey names' e) := by
  cases e with
  | member m => exact .ok (congrArg some (hn.field m))
  | constant v => exact .ok rfl
  | _ => exact .error _

theorem Paired.skip (h : d.Paired ρ d') (n : Nat) : (d.skip n).Paired ρ (d'.skip n) := by
  constructor
  · exact h.filters
  · exact h.queries
  · simp only [Draft.skip, h.start]
  · simp only [Draft.skip, h.limit]
  · exact h.stage

theorem Paired.take (h : d.Paired ρ d') (n : Nat) : (d.take n).Paired ρ (d'.take n) := by
  constructor
  · exact h.filters
  · exact h.queries
  · exact h.start
  · simp only [Draft.take, h.limit]
  · exact h.stage

theorem Paired.order (h : d.Paired ρ d') (k k' : SortKey) (secondary : Bool) :
    (d.order k secondary).Paired ρ (d'.order k' secondary) :=
  ⟨h.filters, h.queries, h.start, h.limit, h.stage⟩

theorem Paired.isPaged (h : d.Paired ρ d') : d'.isPaged = d.isPaged := by
  rw [Draft.isPaged, Draft.isPaged, h.start, h.limit]

theorem alike_onDocuments (hn : names.Renames names' ρ) (h : d.Paired ρ d') (s : Step) :
    Alike ρ (Paired ρ) (d.onDocuments names s) (d'.onDocuments names' s) := by
  cases s with
  | filter predicate =>
    apply (Argument.alike_ofOption ρ .predicate predicate).bind
    rintro e _ rfl
    apply (Expr.alike_criteria hn e).bind
    rintro c _ rfl
    exact .ok { h with filters := by simp [h.filters] }
  | query predicate =>
    apply (Argument.alike_ofOption ρ .predicate predicate).bind
    rintro e _ rfl
    apply (Expr.alike_criteria hn e).bind
    rintro c _ rfl
    exact .ok { h with queries := by simp [h.queries] }
  | queryString text =>
    apply (Argument.alike_ofOption ρ .text text).bind
    rintro t _ rfl
    exact .ok { h with queries := by simp [h.queries, Criteria.renamed] }
  | orderBy key descending secondary =>
    apply (Argument.alike_ofOption ρ .key key).bind
    rintro e _ rfl
    apply (hn.alike_fieldOf .orderBy e).bind
    rintro field _ rfl
    exact .ok (h.order _ _ secondary)
  | orderByScore descending secondary => exact .ok (h.order _ _ secondary)
  | skip n => exact .ok (h.skip n)
  | take n => exact .ok (h.take n)
  | groupBy key =>
    rw [onDocuments, onDocuments, h.isPaged]
    split
    · exact .error _
    · apply (Argument.alike_ofOption ρ .key key).bind
      rintro e _ rfl
      apply (alike_groupKey hn e).bind
      rintro k _ rfl
      exact .ok { h with stage := .grouping k }
  | select projection =>
    apply (Argument.alike_ofOption ρ .projection projection).bind
    rintro e _ rfl
    apply (Projection.alike_ofExpr hn e).bind
    rintro p _ rfl
    exact .ok { h with stage := .selected p }
  | execute terminal predicate =>
    apply (Alike.mapM predicate.toList fun e => Expr.alike_criteria hn e).bind
    rintro cs _ rfl
    exact .ok { h with filters := by simp [h.filters], stage := .executed terminal .source }

theorem alike_onSelected (h : d.Paired ρ d') (p : Projection) (s : Step) :
    Alike ρ (Paired ρ) (d.onSelected p s) (d'.onSelected (p.renamed ρ) s) := by
  cases s with
  | skip n => exact .ok (h.skip n)
  | take n => exact .ok (h.take n)
  | execute terminal predicate =>
    cases predicate with
    | none => exact .ok { h with stage := .executed terminal p }
    | some e => exact .error _
  | _ => exact .error _

theorem alike_onGrouping (hn : names.Renames names' ρ) (h : d.Paired ρ d') (key : Option String)
    (s : Step) :
    Alike ρ (Paired ρ) (d.onGrouping names key s) (d'.onGrouping names' (key.map ρ) s) := by
  cases s with
  | select projection =>
    apply (Argument.alike_ofOption ρ .projection projection).bind
    rintro e _ rfl
    apply (GroupedProjection.alike_ofExpr_renamed hn key e).bind
    rintro g _ ⟨σ, hσ, rfl⟩
    exact .ok { h with stage := .grouped σ g none hσ }
  | _ => exact .error _

theorem alike_onGrouped (h : d.Paired ρ d') {σ : String → String} {g : GroupedProjection}
    (hσ : Set.InjOn σ {n | n ∈ g.facets.map Facet.name}) (limit : Option Nat) (s : Step) :
    Alike ρ (Paired ρ) (d.onGrouped g limit s) (d'.onGrouped (g.renamed ρ σ) limit s) := by
  cases s with
  | take n => exact .ok { h with stage := .grouped σ g _ hσ }
  | _ => exact .error _

/-- One more operation under two namings. -/
theorem alike_step (hn : names.Renames names' ρ) (h : d.Paired ρ d') (s : Step) :
    Alike ρ (Paired ρ) (d.step names s) (d'.step names' s) := by
  have hs := h.stage
  -- The stage decides which operations may come next; both drafts have come equally far.
  rw [step, step]
  generalize d.stage = a, d'.stage = b at hs
  cases hs with
  | documents => exact alike_onDocuments hn h s
  | selected p => exact alike_onSelected h p s
  | executed => exact .error _
  | grouping key => exact alike_onGrouping hn h key s
  | grouped σ g limit hσ => exact alike_onGrouped h hσ limit s

theorem alike_foldlM (hn : names.Renames names' ρ) (h : d.Paired ρ d') (steps : List Step) :
    Alike ρ (Paired ρ) (steps.foldlM (step names) d) (steps.foldlM (step names') d') := by
  induction steps generalizing d d' with
  | nil => exact .ok h
  | cons s rest ih =>
    rw [List.foldlM_cons, List.foldlM_cons]
    apply (alike_step hn h s).bind
    intro a b hab
    exact ih hab

theorem Paired.request (hρ : Function.Injective ρ) (h : d.Paired ρ d') (docType : String)
    (σ : String → String) :
    d'.request docType = (d.request docType).renamed ρ σ d'.sort := by
  simp only [Draft.request, Request.renamed, h.filters, h.queries,
    Criteria.all?_map_renamed hρ, List.map_nil]

theorem Paired.pageRequest (hρ : Function.Injective ρ) (h : d.Paired ρ d') (docType : String)
    (p : Projection) (σ : String → String) :
    d'.pageRequest docType (p.renamed ρ) = (d.pageRequest docType p).renamed ρ σ d'.sort := by
  simp only [Draft.pageRequest, h.request hρ docType σ, Request.renamed, h.start, h.limit,
    Projection.fields_renamed hρ]

theorem Paired.totalRequest (hρ : Function.Injective ρ) (h : d.Paired ρ d') (docType : String)
    (p : Projection) (σ : String → String) :
    d'.totalRequest docType (p.renamed ρ) = (d.totalRequest docType p).renamed ρ σ d'.sort := by
  simp only [Draft.totalRequest, h.request hρ docType σ, Request.renamed,
    Projection.fields_renamed hρ]

theorem Paired.facetRequest (hρ : Function.Injective ρ) (h : d.Paired ρ d') (docType : String)
    (g : GroupedProjection) (σ : String → String) :
    d'.facetRequest docType (g.renamed ρ σ) = (d.facetRequest docType g).renamed ρ σ d'.sort := by
  simp only [Draft.facetRequest, h.request hρ docType σ, Request.renamed,
    GroupedProjection.renamed]

/-- Drafts under two namings have plans that are alike. -/
theorem alike_finish (hρ : Function.Injective ρ) (h : d.Paired ρ d') (source docType : String) :
    Alike ρ (fun p p' => ∃ σ : String → String,
        Set.InjOn σ {n | n ∈ p.request.facets.map Facet.name} ∧ p' = p.renamed ρ σ d'.sort)
      (d.finish source docType) (d'.finish source docType) := by
  have hpage := h.pageRequest hρ docType
  have htotal := h.totalRequest hρ docType
  have hs := h.stage
  rw [finish, finish]
  generalize d.stage = a, d'.stage = b at hs
  cases hs with
  | documents =>
    refine .ok ⟨id, fun _ _ _ _ he => he, ?_⟩
    exact congrArg (Plan.mk · _) (hpage .source id)
  | selected p =>
    refine .ok ⟨id, fun _ _ _ _ he => he, ?_⟩
    rw [hpage p id, Projection.valueType_renamed]
    rfl
  | executed terminal p =>
    cases terminal with
    | first =>
      refine .ok ⟨id, fun _ _ _ _ he => he, ?_⟩
      simp only [hpage p id, h.start, h.limit, Projection.valueType_renamed]
      rfl
    | count | any =>
      refine .ok ⟨id, fun _ _ _ _ he => he, ?_⟩
      simp only [htotal p id, h.start, h.limit]
      rfl
  | grouping key => exact .error _
  | grouped σ g limit hσ =>
    refine .ok ⟨σ, ?_, ?_⟩
    · rw [← GroupedProjection.names_limitedTo limit g] at hσ
      exact hσ
    · change (⟨d'.facetRequest docType ((g.renamed ρ σ).limitedTo limit),
        .rows ((g.renamed ρ σ).limitedTo limit).rows⟩ : Plan) = _
      rw [GroupedProjection.limitedTo_renamed, h.facetRequest hρ]
      rfl

end Draft

/-- A sort key before its field is resolved: the key of a member, or that of the relevance. -/
structure OrderKey where
  member : Option Member
  descending : Bool

def OrderKey.resolve (field : Member → String) (k : OrderKey) : SortKey :=
  match k.member with
  | some m => ⟨field m, k.descending⟩
  | none => .relevance k.descending

/-- The key of an ordering, and whether it only breaks ties. -/
def Step.orderKey? : Step → Option (OrderKey × Bool)
  | .orderBy (some (.member m)) descending secondary => some (⟨some m, descending⟩, secondary)
  | .orderByScore descending secondary => some (⟨none, descending⟩, secondary)
  | _ => none

/-- A primary ordering goes before the orderings so far, a secondary one after them. -/
def Step.orderKeys (keys : List OrderKey) (s : Step) : List OrderKey :=
  match s.orderKey? with
  | some (k, secondary) => if secondary then keys ++ [k] else k :: keys
  | none => keys

/-- The sort keys of a chain, under no naming yet. -/
def Query.orderKeys (q : Query) : List OrderKey := q.steps.foldl Step.orderKeys []

theorem Step.ordering?_eq (names : FieldNames) (s : Step) :
    s.ordering? names = s.orderKey?.map fun k => (k.1.resolve names.field, k.2) := by
  cases s with
  | orderBy key descending secondary =>
    cases key with
    | none => rfl
    | some e => cases e <;> rfl
  | _ => rfl

theorem Step.sortKeys_resolve (names : FieldNames) (keys : List OrderKey) (s : Step) :
    s.sortKeys names (keys.map (OrderKey.resolve names.field)) =
      (s.orderKeys keys).map (OrderKey.resolve names.field) := by
  rw [sortKeys, orderKeys, ordering?_eq]
  cases s.orderKey? with
  | none => rfl
  | some k =>
    obtain ⟨k, secondary⟩ := k
    cases secondary <;> simp

theorem Step.foldl_sortKeys (names : FieldNames) (keys : List OrderKey) (steps : List Step) :
    steps.foldl (Step.sortKeys names) (keys.map (OrderKey.resolve names.field)) =
      (steps.foldl Step.orderKeys keys).map (OrderKey.resolve names.field) := by
  induction steps generalizing keys with
  | nil => rfl
  | cons s rest ih => rw [List.foldl_cons, sortKeys_resolve, ih, List.foldl_cons]

namespace Query

/-- The sort keys of a plan are those of the orderings, resolved. -/
theorem sort_of_plan {q : Query} (h : q.plan names = .ok p) :
    p.request.sort = q.orderKeys.map (OrderKey.resolve names.field) := by
  obtain ⟨-, d, hruns, hfinish⟩ := plan_eq_ok_iff.1 h
  obtain ⟨-, -, hsort, -⟩ := Draft.finish_request hfinish
  rw [hsort, hruns.sort]
  exact Step.foldl_sortKeys names [] q.steps

/-- A renaming of fields passes through the whole plan. -/
theorem alike_plan (hn : names.Renames names' ρ) (q : Query) :
    Alike ρ (fun p p' => ∃ σ : String → String,
        Set.InjOn σ {n | n ∈ p.request.facets.map Facet.name} ∧
          p' = p.renamed ρ σ p'.request.sort)
      (q.plan names) (q.plan names') := by
  rw [plan, plan]
  cases q.missing with
  | cons a rest => exact .error _
  | nil =>
    have hempty : Draft.Paired ρ {} {} := ⟨rfl, rfl, rfl, rfl, .documents⟩
    apply (Draft.alike_foldlM hn hempty q.steps).bind
    intro d d' hd
    rw [hn.type]
    apply (Draft.alike_finish hn.injective hd q.docType _).imp_ok
    rintro p p' - - ⟨σ, hσ, rfl⟩
    exact ⟨σ, hσ, rfl⟩

end Query

/-- A field under a namespace. -/
def under (namespaceName field : String) : String := namespaceName ++ "." ++ field

theorem under_injective (namespaceName : String) : Function.Injective (under namespaceName) := by
  intro f g h
  exact (String.append_right_inj _).1 h

theorem renames_under (naming : Naming) {namespaceName : String} (hn : namespaceName ≠ "") :
    FieldNames.Renames ⟨naming, ""⟩ ⟨naming, namespaceName⟩ (under namespaceName) := by
  constructor
  · exact under_injective namespaceName
  · intro m
    rw [FieldNames.field, FieldNames.field, if_neg hn, if_pos rfl]
    rfl
  · rfl

namespace Query

/-- Under a namespace a query is refused for the same cause as without, or planned as without it but
for the fields of its members and the names of its facets. -/
theorem plan_under (naming : Naming) {namespaceName : String} (hn : namespaceName ≠ "")
    (q : Query) :
    (∀ e, q.plan ⟨naming, ""⟩ = .error e →
      q.plan ⟨naming, namespaceName⟩ = .error (e.renamed (under namespaceName))) ∧
      ∀ p, q.plan ⟨naming, ""⟩ = .ok p →
        p.request.sort = q.orderKeys.map (OrderKey.resolve naming.field) ∧
        ∃ σ : String → String, Set.InjOn σ {n | n ∈ p.request.facets.map Facet.name} ∧
          q.plan ⟨naming, namespaceName⟩ = .ok (p.renamed (under namespaceName) σ
            (q.orderKeys.map
              (OrderKey.resolve fun m => under namespaceName (naming.field m)))) := by
  have hrenames := renames_under naming hn
  have halike := alike_plan hrenames q
  constructor
  · intro e he
    rw [he] at halike
    exact halike.of_error
  · intro p hp
    rw [hp] at halike
    obtain ⟨p', hp', σ, hσ, he⟩ := halike.of_ok
    have hsort : p.request.sort = q.orderKeys.map (OrderKey.resolve naming.field) :=
      sort_of_plan hp
    have hfield : FieldNames.field ⟨naming, namespaceName⟩ =
        fun m => under namespaceName (naming.field m) := funext hrenames.field
    have hsort' := sort_of_plan hp'
    rw [hfield] at hsort'
    rw [hsort'] at he
    exact ⟨hsort, σ, hσ, hp'.trans (congrArg Except.ok he)⟩

/-- A count and the sum of a field that is called `count`, which share a name in no namespace. -/
def countedCounts : Query :=
  ⟨"Robot", [.orderByScore true false, .orderBy (some (.field "zone")) false true,
    .groupBy (some (.field "zone")), .select (some (.record
      [("n", .aggregate .count none), ("s", .aggregate .sum (some (.field "count")))]))]⟩

/-- A comparison that is refused with the name of its field. -/
def costAboveNull : Query :=
  ⟨"Robot", [.filter (some (.compare .gt (.field "cost") (.constant .null)))]⟩

theorem plan_under_counted :
    (∃ p p' σ, countedCounts.plan ⟨⟨Member.name, id⟩, ""⟩ = .ok p ∧
      countedCounts.plan ⟨⟨Member.name, id⟩, "unit"⟩ = .ok p' ∧
      p.request.facets.map Facet.name = ["count", "count_1"] ∧
      p'.request.facets.map Facet.name = ["count", "unit.count"] ∧
      p' = p.renamed (under "unit") σ [.relevance true, ⟨"unit.zone", false⟩]) ∧
    costAboveNull.plan ⟨⟨Member.name, id⟩, "unit"⟩ =
      .error (.unsupported (.orderAgainstNull "unit.cost")) := by
  have hn : "unit" ≠ "" := by decide
  constructor
  · have h := (plan_under ⟨Member.name, id⟩ hn countedCounts).2 _ rfl
    obtain ⟨-, σ, -, hp⟩ := h
    exact ⟨_, _, σ, rfl, rfl, rfl, rfl, Except.ok.inj hp⟩
  · exact (plan_under ⟨Member.name, id⟩ hn costAboveNull).1 _ rfl

end Query

end SearchQuery
