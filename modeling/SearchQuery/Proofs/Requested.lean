import SearchQuery.Proofs.Paging

/-!
Extractors read nothing but what the request of their plan asks for: responses that agree on that
much have the same value.
-/

namespace SearchQuery

/-- Hits that a request for some fields does not tell apart; without fields it is for documents. -/
structure Hit.AgreeOn (fields : List String) (h h' : Hit) : Prop where
  source : fields = [] → h.source = h'.source
  field : ∀ n ∈ fields, h.field n = h'.field n

/-- What the engine wrote under the name of a facet, decodable or not. -/
def Response.written? (r : Response) (name : String) : Option Json :=
  r.facets.bind fun members => members.get? name

/-- Responses that are alike in all that a request asks for. -/
structure Response.AgreeOn (q : Request) (r r' : Response) : Prop where
  total : r.total = r'.total
  hits : List.Forall₂ (Hit.AgreeOn q.fields) r.found r'.found
  isEmpty : (r.facets.getD []).isEmpty = (r'.facets.getD []).isEmpty
  facets : ∀ f ∈ q.facets, r.written? f.name = r'.written? f.name

theorem Response.facet?_eq (r : Response) (name : String) :
    r.facet? name = (r.written? name).bind FacetResult.ofJson? :=
  (Option.bind_assoc ..).symm

namespace Projection

/-- The fields that are read of a hit, as often as they are. -/
def reads : Projection → List String
  | source => []
  | field name => [name]
  | record members => members.map Prod.snd

theorem mem_fields {p : Projection} : n ∈ p.fields ↔ n ∈ p.reads := by
  cases p with
  | source | field => rfl
  | record members => exact List.mem_eraseDups

theorem nodup_eraseDups (names : List String) : names.eraseDups.Nodup := by
  cases names with
  | nil => exact List.nodup_nil
  | cons name rest =>
    rw [List.eraseDups_cons, List.nodup_cons, List.mem_eraseDups]
    constructor
    · simp
    · exact nodup_eraseDups _
termination_by names.length
decreasing_by exact Nat.lt_succ_of_le (List.length_filter_le ..)

theorem nodup_fields (p : Projection) : p.fields.Nodup := by
  cases p with
  | source => exact List.nodup_nil
  | field => exact List.nodup_singleton _
  | record members => exact nodup_eraseDups _

/-- Items are made of what the fields of the projection tell of a hit. -/
theorem apply_congr {p : Projection} {h h' : Hit} (ha : h.AgreeOn p.fields h') :
    p.apply h = p.apply h' := by
  have hfield : ∀ n ∈ p.reads, h.field n = h'.field n := fun n hn => ha.field n (mem_fields.2 hn)
  cases p with
  | source => rw [apply, apply, ha.source rfl]
  | field name => exact hfield name (.head _)
  | record members =>
    have hmap : (members.map fun m => (m.1, h.field m.2)) =
        members.map fun m => (m.1, h'.field m.2) := by
      apply List.map_congr_left
      intro m hm
      rw [hfield m.2 (List.mem_map_of_mem hm)]
    exact congrArg (fun ms => Json.object (Members.ofList ms)) hmap

theorem map_apply_congr {p : Projection} {hits hits' : List Hit}
    (h : List.Forall₂ (Hit.AgreeOn p.fields) hits hits') :
    hits.map p.apply = hits'.map p.apply := by
  induction h with
  | nil => rfl
  | cons ha _ ih => rw [List.map_cons, List.map_cons, apply_congr ha, ih]

end Projection

theorem PageValue.size_congr {r r' : Response} (x : PageValue) (h : r.total = r'.total) :
    x.size r = x.size r' := by
  rw [size, size, h]

/-- The facet that a cell reads, when it reads one. -/
def Cell.facet? : Cell → Option String
  | key => none
  | statistic facet _ => some facet

namespace GroupRows

/-- All facets that rows are made from. -/
def reads (x : GroupRows) : List String := x.columns.filterMap (·.cell.facet?) ++ x.bucketFacets

variable {x : GroupRows} {r r' : Response}

theorem terms_congr (h : ∀ n ∈ x.bucketFacets, r.facet? n = r'.facet? n) :
    x.terms r = x.terms r' := by
  rw [terms, terms, List.filterMap_congr h]

theorem row_congr (h : ∀ c ∈ x.columns, ∀ n ∈ c.cell.facet?, r.facet? n = r'.facet? n)
    (term : Option Json) : x.row r term = x.row r' term := by
  have hcell : ∀ c ∈ x.columns, c.cell.value r term = c.cell.value r' term := by
    rintro ⟨name, cell⟩ hc
    cases cell with
    | key => rfl
    | statistic facet s => rw [Cell.value, Cell.value, h _ hc facet rfl]
  unfold row
  split
  · rw [List.map_congr_left fun c hc => by rw [hcell c hc]]
  · cases hx : x.columns with
    | nil => rfl
    | cons c rest =>
      have hc := hcell c (hx ▸ .head _)
      simp [hc]

theorem extract_congr (he : (r.facets.getD []).isEmpty = (r'.facets.getD []).isEmpty)
    (h : ∀ n ∈ x.reads, r.facet? n = r'.facet? n) : x.extract r = x.extract r' := by
  have hterms := terms_congr fun n hn => h n (List.mem_append_right _ hn)
  have hrow := row_congr (x := x) fun c hc n hn =>
    h n (List.mem_append_left _ (List.mem_filterMap.2 ⟨c, hc, hn⟩))
  unfold extract
  simp only [he, hterms, hrow]

end GroupRows

namespace Extractor

/-- The fields that are read of each hit. -/
def fields : Extractor → List String
  | hits x => x.projection.reads
  | page x => x.projection.reads
  | rows _ => []

def facets : Extractor → List String
  | hits _ | page _ => []
  | rows x => x.reads

/-- The extractor reads what a request asks for: a number of documents none of their fields, and
rows the facets that make them. -/
inductive Asked (q : Request) : Extractor → Prop
  | hits (hp : q.fields = x.projection.fields) : Asked q (.hits x)
  | first (hp : q.fields = x.projection.fields) : Asked q (.page x)
  | total (ht : x.terminal ≠ .first) (hp : x.projection = .source) : Asked q (.page x)
  | rows (hn : ∀ n ∈ x.reads, n ∈ q.facets.map Facet.name)
    (hb : x.bucketFacets = (q.facets.filter (·.body.hasBuckets)).map Facet.name) :
    Asked q (.rows x)

variable {q : Request} {x : Extractor} {r r' : Response}

theorem facet?_congr (h : r.AgreeOn q r') (hn : n ∈ q.facets.map Facet.name) :
    r.facet? n = r'.facet? n := by
  obtain ⟨f, hf, rfl⟩ := List.mem_map.1 hn
  rw [Response.facet?_eq, Response.facet?_eq, h.facets f hf]

/-- What is asked for decides the value. -/
theorem Asked.extract_congr (hx : Asked q x) (h : r.AgreeOn q r') :
    ∃ v, x.extract (some r) = .ok v ∧ x.extract (some r') = .ok v := by
  cases hx with
  | @hits x hp =>
    have hitems : x.extract r' = x.extract r :=
      congrArg Json.array (Projection.map_apply_congr (hp ▸ h.hits)).symm
    exact ⟨_, rfl, congrArg Except.ok hitems⟩
  | @first x hp =>
    have hvalue : x.extract r' = x.extract r := by
      simp only [PageValue.extract, x.size_congr h.total, ← List.head?_map,
        Projection.map_apply_congr (hp ▸ h.hits)]
    exact ⟨_, rfl, congrArg Except.ok hvalue⟩
  | @total x ht hp =>
    have hvalue : x.extract r' = x.extract r := by
      rw [PageValue.extract, PageValue.extract, x.size_congr h.total]
      split
      · rfl
      · rfl
      next hf => exact absurd hf ht
    exact ⟨_, rfl, congrArg Except.ok hvalue⟩
  | @rows x hn hb =>
    have hrows := GroupRows.extract_congr h.isEmpty fun n hm => facet?_congr h (hn n hm)
    exact ⟨_, rfl, congrArg Except.ok hrows.symm⟩

theorem Asked.mem_fields (hx : Asked q x) (hn : n ∈ x.fields) :
    n ∈ q.fields := by
  cases hx with
  | hits hp | first hp =>
    rw [hp]
    exact Projection.mem_fields.2 hn
  | total _ hp => simp [fields, hp, Projection.reads] at hn
  | rows => cases hn

theorem Asked.mem_facets (hx : Asked q x) (hn : n ∈ x.facets) :
    n ∈ q.facets.map Facet.name := by
  cases hx with
  | hits | first | total => cases hn
  | rows hnames _ => exact hnames n hn

end Extractor

namespace GroupedProjection

theorem Reads.mem_names {facets : List Facet} (h : Reads names key facets e cell)
    (hn : cell.facet? = some n) : n ∈ facets.map Facet.name := by
  cases h with
  | groupKey => cases hn
  | aggregate _ hg _ =>
    cases hn
    exact List.mem_map_of_mem hg

/-- The facet of each column was requested for it, and rows are made of all buckets. -/
theorem Lowers.asked (h : Lowers names key e g) (limit : Option Nat) {q : Request}
    (hq : q.facets = (g.limitedTo limit).facets) : Extractor.Asked q (.rows g.rows) := by
  have hnames : q.facets.map Facet.name = g.facets.map Facet.name := by
    rw [hq, names_limitedTo]
  have hbuckets : g.rows.bucketFacets = (q.facets.filter (·.body.hasBuckets)).map Facet.name := by
    rw [hq, h.bucketFacets_limitedTo limit]
  refine .rows (fun n hn => ?_) hbuckets
  rcases List.mem_append.1 hn with hc | hb
  · obtain ⟨c, hc, hcell⟩ := List.mem_filterMap.1 hc
    obtain ⟨i, hi⟩ := List.mem_iff_getElem?.1 (List.mem_map_of_mem (f := Column.cell) hc)
    obtain ⟨e, -, hreads⟩ := exists_of_forall₂ h.reads.flip hi
    rw [hnames]
    exact hreads.mem_names hcell
  · rw [hbuckets] at hb
    obtain ⟨f, hf, rfl⟩ := List.mem_map.1 hb
    exact List.mem_map_of_mem (List.mem_of_mem_filter hf)

end GroupedProjection

/-- Whatever the stage of a chain, its plan asks for all that it reads. -/
theorem Draft.Lowered.asked (hd : d.Lowered names) (h : finish d source docType = .ok p) :
    p.extractor.Asked p.request := by
  rw [finish] at h
  split at h
  · cases h
    exact .hits rfl
  · cases h
    exact .hits rfl
  next terminal projection _ =>
    cases terminal with
    | first =>
      cases h
      exact .first rfl
    | count | any =>
      cases h
      exact .total (by simp [PageValue.count, PageValue.any]) rfl
  · cases h
  next g limit hg =>
    cases h
    obtain ⟨key, e, hp⟩ := hd g limit hg
    have hrows := GroupedProjection.rows_limitedTo limit g
    have hasked := (GroupedProjection.lowers_ofExpr hp).asked limit
      (q := d.facetRequest docType (g.limitedTo limit)) rfl
    rw [← hrows] at hasked
    exact hasked

namespace Query

/-- Responses that agree on what the request of a plan asks for have the same value. The fields of
a hit that are read are asked for, each once, and so are the facets of columns and buckets. -/
theorem extract_of_agreeOn {q : Query} {names : FieldNames} (h : q.plan names = .ok p) :
    (∀ r r', r.AgreeOn p.request r' →
      ∃ v, p.extractor.extract (some r) = .ok v ∧ p.extractor.extract (some r') = .ok v) ∧
      (∀ n ∈ p.extractor.fields, n ∈ p.request.fields) ∧ p.request.fields.Nodup ∧
      (∀ n ∈ p.extractor.facets, (p.request.facets.map Facet.name).count n = 1) ∧
      ∀ x, p.extractor = .rows x →
        x.bucketFacets = (p.request.facets.filter (·.body.hasBuckets)).map Facet.name := by
  obtain ⟨-, d, hruns, hfinish⟩ := plan_eq_ok_iff.1 h
  have hlowered := hruns.lowered (Draft.lowered_empty names)
  have hasked := hlowered.asked hfinish
  have hfields : p.request.fields.Nodup := by
    rw [Draft.finish_fields hfinish]
    exact d.stage.projection.nodup_fields
  have hnames := hlowered.nodup hfinish
  refine ⟨fun r r' hr => hasked.extract_congr hr, fun n hn => hasked.mem_fields hn, hfields,
    fun n hn => List.count_eq_one_of_mem hnames (hasked.mem_facets hn), ?_⟩
  rintro x hx
  rw [hx] at hasked
  cases hasked with
  | rows _ hb => exact hb

/-- One field under two names. -/
def labelled : Query :=
  ⟨"Robot", [.select (some (.record [("id", .field "serial"), ("label", .field "serial")]))]⟩

/-- A hit with more than the field that is asked for. -/
def crowded : Response :=
  { took := 3, hits := some { hits := some [
    { id := some "1", fields := some [("zone", .nat 2), ("serial", .nat 7)] }] } }

/-- A hit with the field that is asked for, and a document that is not. -/
def bare : Response :=
  { facets := some [], hits := some { hits := some [
    { source := some (.object []), fields := some [("serial", .nat 7)] }] } }

theorem extract_of_agreeOn_labelled : ∃ p v, labelled.plan ⟨⟨Member.name, id⟩, ""⟩ = .ok p ∧
    crowded.AgreeOn p.request bare ∧ p.extractor.extract (some crowded) = .ok v ∧
    p.extractor.extract (some bare) = .ok v := by
  have h : labelled.plan ⟨⟨Member.name, id⟩, ""⟩ = .ok _ := rfl
  have hagree : crowded.AgreeOn ⟨"Robot", none, none, [], [], ["serial"], none, none⟩ bare :=
    ⟨rfl, .cons ⟨by rintro ⟨⟩, by simp [Hit.field, Members.get?]⟩ .nil, rfl, by rintro f ⟨⟩⟩
  obtain ⟨v, hv, hv'⟩ := (extract_of_agreeOn h).1 crowded bare hagree
  exact ⟨_, v, rfl, hagree, hv, hv'⟩

end Query

end SearchQuery
