import SearchQuery.Proofs.Requested
import SearchQuery.Proofs.Responses
import SearchQuery.Proofs.Rows

/-!
How many rows groups have. A limit bounds the buckets of each facet, and the rows are as many as all
facets may have of them together; a constant key makes one row when there is a facet to read.
-/

namespace SearchQuery

theorem length_firstMet_le (vs : List Json) : (firstMet vs).length ≤ vs.length := by
  induction vs with
  | nil => exact Nat.le_refl 0
  | cons v rest ih =>
    have hfilter := List.length_filter_le (fun w => !(v == w)) (firstMet rest)
    rw [firstMet, List.length_cons, List.length_cons]
    omega

theorem firstMet_of_pairwise {vs : List Json} (h : vs.Pairwise fun v w => (v == w) = false) :
    firstMet vs = vs := by
  induction vs with
  | nil => rfl
  | cons v rest ih =>
    obtain ⟨hfirst, hrest⟩ := List.pairwise_cons.1 h
    rw [firstMet, ih hrest, List.filter_eq_self.2]
    intro w hw
    rw [hfirst w hw]
    rfl

theorem Json.nat_beq_nat (m n : Nat) : (Json.nat m == Json.nat n) = decide (m = n) := by
  change decide ((m : Int) = n) = decide (m = n)
  rw [decide_eq_decide]
  exact Int.ofNat_inj

namespace Draft

theorem tightened_some (takes : List Nat) (n : Nat) :
    tightened takes (some n) = some (takes.foldl min n) := by
  induction takes generalizing n with
  | nil => rfl
  | cons m rest ih => exact ih (min n m)

/-- Of several limits the smallest one counts. -/
theorem tightened_none (takes : List Nat) : tightened takes none = takes.min? := by
  cases takes with
  | nil => rfl
  | cons n rest =>
    rw [List.min?_cons']
    exact tightened_some rest n

end Draft

theorem FacetBody.size?_limited (n : Nat) (b : FacetBody) :
    (b.limited n).size? = if b.hasBuckets then some n else none := by
  cases b <;> rfl

namespace Response

/-- No result of a facet has more buckets than the request asks for. -/
def Within (q : Request) (r : Response) : Prop :=
  ∀ f ∈ q.facets, ∀ n ∈ f.body.size?, ∀ x ∈ r.facet? f.name, x.buckets.length ≤ n

theorem length_buckets_le {r : Response} {facets : List String}
    (h : ∀ name ∈ facets, ∀ x ∈ r.facet? name, x.buckets.length ≤ n) :
    ((facets.filterMap r.facet?).flatMap FacetResult.buckets).length ≤ n * facets.length := by
  induction facets with
  | nil => exact Nat.zero_le _
  | cons name rest ih =>
    obtain ⟨hfirst, hrest⟩ := List.forall_mem_cons.1 h
    have hle := ih hrest
    rw [List.filterMap_cons, List.length_cons, Nat.mul_succ]
    cases hx : r.facet? name with
    | none => exact Nat.le_add_right_of_le hle
    | some x =>
      have hlen := hfirst x hx
      rw [List.flatMap_cons, List.length_append]
      omega

/-- Buckets of the numbers from `start` on. -/
def counted (start n : Nat) : List Bucket := (List.range' start n).map fun i => ⟨.nat i, []⟩

/-- A result for each name with `n` buckets, no two of them with the same term. -/
def numbered (n start : Nat) : List String → Members
  | [] => []
  | name :: rest =>
    (name, (FacetResult.terms (counted start n)).toJson) :: numbered n (start + n) rest

theorem ofJson?_counted (start n : Nat) :
    FacetResult.ofJson? (FacetResult.terms (counted start n)).toJson =
      some (.terms (counted start n)) := by
  have hitems : ∀ v ∈ (counted start n).map Bucket.toJson, v.Settled := by
    intro v hv
    obtain ⟨b, hb, rfl⟩ := List.mem_map.1 hv
    obtain ⟨i, -, rfl⟩ := List.mem_map.1 hb
    simp [Bucket.toJson, Json.Settled, Json.SettledMembers, Members.names, Json.nat]
  apply FacetResult.ofJson?_toJson
  refine ⟨by simp [Members.names], trivial, Json.settledItems_iff.2 hitems, trivial⟩

theorem names_numbered (n start : Nat) (names : List String) :
    (numbered n start names).names = names := by
  induction names generalizing start with
  | nil => rfl
  | cons name rest ih => exact congrArg (name :: ·) (ih _)

theorem length_buckets_of_mem_numbered {names : List String} (h : m ∈ numbered n start names) :
    ∃ x, FacetResult.ofJson? m.2 = some x ∧ x.buckets.length = n := by
  induction names generalizing start with
  | nil => cases h
  | cons name rest ih =>
    rcases List.mem_cons.1 h with rfl | hm
    · exact ⟨_, ofJson?_counted start n, by simp [FacetResult.buckets, counted]⟩
    · exact ih hm

theorem terms_numbered (n start : Nat) (names : List String) :
    (((numbered n start names).filterMap fun m => FacetResult.ofJson? m.2).flatMap
      FacetResult.buckets).map Bucket.term = (List.range' start (n * names.length)).map .nat := by
  induction names generalizing start with
  | nil => rfl
  | cons name rest ih =>
    have hfirst : (counted start n).map Bucket.term = (List.range' start n).map .nat := by
      simp [counted]
    rw [numbered, List.filterMap_cons, ofJson?_counted]
    simp only [List.flatMap_cons, FacetResult.buckets, List.map_append, hfirst, ih]
    rw [← List.map_append, List.range'_append_1, List.length_cons, Nat.mul_succ, Nat.add_comm]

theorem filterMap_facet?_names {members : Members} (hn : members.names.Nodup) :
    members.names.filterMap (facet? { facets := some members }) =
      members.filterMap fun m => FacetResult.ofJson? m.2 := by
  rw [Members.names, List.filterMap_map]
  apply List.filterMap_congr
  intro m hm
  simp [facet?, Members.get?_of_mem hn hm]

theorem length_buckets_numbered {n start : Nat} {names : List String} {name : String}
    (h : facet? { facets := some (numbered n start names) } name = some x) :
    x.buckets.length = n := by
  obtain ⟨v, hv, hx⟩ := Option.bind_eq_some_iff.1 h
  obtain ⟨y, hy, hlen⟩ := length_buckets_of_mem_numbered (Members.mem_of_get? hv)
  rw [hx, Option.some.injEq] at hy
  rwa [hy]

/-- Each facet of a request has a result, and there are no others when none was asked for. -/
structure Complete (q : Request) (r : Response) : Prop where
  written : ∀ f ∈ q.facets, (r.written? f.name).isSome
  empty : q.facets = [] → r.facets.getD [] = []

theorem Complete.isEmpty {r : Response} (h : r.Complete q) :
    (r.facets.getD []).isEmpty = q.facets.isEmpty := by
  cases hq : q.facets with
  | nil => rw [h.empty hq]; rfl
  | cons f rest =>
    have hw := h.written f (hq ▸ .head _)
    rw [written?] at hw
    cases hm : r.facets with
    | none => simp [hm] at hw
    | some members =>
      cases members with
      | nil => simp [hm, Members.get?] at hw
      | cons => rfl

end Response

namespace GroupRows

variable {x : GroupRows} {r : Response}

theorem rowTerms_of_grouped (hg : x.grouped = true) (r : Response) :
    x.rowTerms r = if (r.facets.getD []).isEmpty then [] else (x.terms r).map some := by
  rw [rowTerms, hg, if_pos rfl]

/-- Without a key there is a single row, which has no term. -/
theorem rowTerms_of_ungrouped (hg : x.grouped = false) (r : Response) :
    x.rowTerms r = if (r.facets.getD []).isEmpty then [] else [none] := by
  rw [rowTerms, hg, if_neg Bool.false_ne_true]

/-- There are at most as many rows as buckets. -/
theorem length_rowTerms_le (hg : x.grouped = true)
    (h : ∀ name ∈ x.bucketFacets, ∀ y ∈ r.facet? name, y.buckets.length ≤ n) :
    (x.rowTerms r).length ≤ n * x.bucketFacets.length := by
  have hterms : (x.terms r).length ≤ n * x.bucketFacets.length := by
    rw [terms_eq]
    refine Nat.le_trans (length_firstMet_le _) ?_
    rw [List.length_map]
    exact Response.length_buckets_le h
  rw [rowTerms_of_grouped hg]
  split
  · exact Nat.zero_le _
  · rwa [List.length_map]

/-- Buckets of different terms have a row each. -/
theorem length_rowTerms_numbered (hg : x.grouped = true) (hn : x.bucketFacets.Nodup) (n : Nat) :
    (x.rowTerms { facets := some (Response.numbered n 0 x.bucketFacets) }).length =
      n * x.bucketFacets.length := by
  have hnames := Response.names_numbered n 0 x.bucketFacets
  have hfacets := Response.filterMap_facet?_names (hnames.symm ▸ hn)
  rw [hnames] at hfacets
  have hdistinct : ((List.range' 0 (n * x.bucketFacets.length)).map Json.nat).Pairwise
      fun v w => (v == w) = false := by
    rw [List.pairwise_map]
    refine List.Pairwise.imp (fun hne => ?_) List.nodup_range'
    rw [Json.nat_beq_nat, decide_eq_false hne]
  rw [rowTerms_of_grouped hg]
  split
  next he =>
    have hnil : Response.numbered n 0 x.bucketFacets = [] := List.isEmpty_iff.1 he
    rw [hnil] at hnames
    rw [← hnames]
    rfl
  next =>
    rw [List.length_map, terms_eq, hfacets, Response.terms_numbered,
      firstMet_of_pairwise hdistinct, List.length_map, List.length_range']

end GroupRows

def Expr.isAggregate : Expr → Bool
  | .aggregate .. => true
  | _ => false

theorem Expr.any_isAggregate {cells : List Expr} :
    cells.any isAggregate = true ↔ ∃ a argument, .aggregate a argument ∈ cells := by
  rw [List.any_eq_true]
  constructor
  · rintro ⟨e, hm, he⟩
    cases e with
    | aggregate a argument => exact ⟨a, argument, hm⟩
    | _ => cases he
  · rintro ⟨a, argument, hm⟩
    exact ⟨_, hm, rfl⟩

namespace GroupedProjection

/-- Documents that are grouped by a constant need no facet but those of aggregates. -/
theorem Lowers.isEmpty_facets (h : Lowers names none e p) :
    p.facets.isEmpty = !e.cells.any Expr.isAggregate := by
  cases hfacets : p.facets with
  | nil =>
    have hnone : ¬e.cells.any Expr.isAggregate = true := by
      rw [Expr.any_isAggregate]
      rintro ⟨a, argument, hm⟩
      obtain ⟨i, hi⟩ := List.mem_iff_getElem?.1 hm
      obtain ⟨cell, -, hreads⟩ := exists_of_forall₂ h.reads hi
      cases hreads with
      | aggregate _ hg _ =>
        rw [hfacets] at hg
        cases hg
    rw [Bool.eq_false_iff.2 hnone]
    rfl
  | cons g rest =>
    have hsome : e.cells.any Expr.isAggregate = true := by
      rw [Expr.any_isAggregate]
      rcases h.requested g (hfacets ▸ .head _) with ⟨a, argument, f, hm, -⟩ | ⟨k, hk, -⟩
      · exact ⟨a, argument, hm⟩
      · cases hk
    rw [hsome]
    rfl

/-- The number of facets with buckets, limited or not. -/
theorem Lowers.length_bucketFacets (h : Lowers names key e p) (limit : Option Nat) :
    p.rows.bucketFacets.length = (p.limitedTo limit).facets.countP (·.body.hasBuckets) := by
  rw [h.bucketFacets_limitedTo limit, List.length_map, List.countP_eq_length_filter]

theorem size?_of_mem_limitedTo (h : f ∈ (limitedTo (some n) p).facets) :
    f.body.size? = if f.body.hasBuckets then some n else none := by
  rw [facets_limitedTo] at h
  obtain ⟨g, -, rfl⟩ := List.mem_map.1 h
  rw [FacetBody.hasBuckets_limitedTo]
  exact FacetBody.size?_limited n g.body

/-- The facets that rows are made of have no more buckets than rows are asked for. -/
theorem Lowers.length_buckets_le (h : Lowers names key e p) {q : Request} {r : Response}
    (hq : q.facets = (p.limitedTo (some n)).facets) (hr : r.Within q) :
    ∀ name ∈ p.rows.bucketFacets, ∀ x ∈ r.facet? name, x.buckets.length ≤ n := by
  intro name hm
  rw [h.bucketFacets_limitedTo (some n), ← hq] at hm
  obtain ⟨f, hf, rfl⟩ := List.mem_map.1 hm
  obtain ⟨hf, hb⟩ := List.mem_filter.1 hf
  have hsize := size?_of_mem_limitedTo (hq ▸ hf)
  rw [if_pos hb] at hsize
  exact hr f hf n hsize

theorem within_numbered {q : Request} (hq : q.facets = (limitedTo (some n) p).facets)
    (names : List String) :
    Response.Within q { facets := some (Response.numbered n 0 names) } := by
  intro f hf m hm x hx
  rw [size?_of_mem_limitedTo (hq ▸ hf)] at hm
  split at hm
  · cases hm
    exact Nat.le_of_eq (Response.length_buckets_numbered hx)
  · cases hm

theorem Lowers.nodup_bucketFacets (h : Lowers names key e p) : p.rows.bucketFacets.Nodup := by
  rw [h.bucketFacets]
  exact h.nodup.sublist (List.filter_sublist.map _)

end GroupedProjection

namespace Query

variable {names : FieldNames} {docType : String} {first : List Step} {takes : List Nat}

/-- The least of the limits bounds the buckets of each facet, so there are at most that many rows
for each facet with buckets, and there may be as many. A constant key has one row at most. -/
theorem rows_of_takes {k : Expr}
    (h : plan names ⟨docType, first ++ .groupBy (some k) :: .select (some e) :: takes.map .take⟩ =
      .ok p)
    (hn : takes.min? = some n) :
    (∀ m, k = .member m →
      (∀ r, r.Within p.request → ∃ rows, p.extractor.extract (some r) = .ok (.array rows) ∧
        rows.length ≤ n * p.request.facets.countP (·.body.hasBuckets)) ∧
      ∃ r rows, r.Within p.request ∧ p.extractor.extract (some r) = .ok (.array rows) ∧
        rows.length = n * p.request.facets.countP (·.body.hasBuckets)) ∧
    ∀ v, k = .constant v → ∀ r, ∃ rows, p.extractor.extract (some r) = .ok (.array rows) ∧
      rows.length ≤ 1 := by
  obtain ⟨-, d, key, g, hd, hs, hp, hk, hg, rfl⟩ := plan_grouped_iff.1 h
  have hl := GroupedProjection.lowers_ofExpr hg
  have hrows (r : Response) : (Extractor.rows g.rows).extract (some r) =
      .ok (.array ((g.rows.rowTerms r).map (g.rows.row r))) :=
    congrArg Except.ok (g.rows.extract_eq r)
  rw [Draft.tightened_none, hn]
  constructor
  · rintro m rfl
    cases hk
    have hcount := hl.length_bucketFacets (some n)
    constructor
    · intro r hr
      -- The terms of different facets may differ, so the facets count one by one.
      refine ⟨_, hrows r, ?_⟩
      rw [List.length_map]
      exact hcount ▸ g.rows.length_rowTerms_le hl.grouped (hl.length_buckets_le rfl hr)
    · refine ⟨_, _, GroupedProjection.within_numbered rfl g.rows.bucketFacets, hrows _, ?_⟩
      rw [List.length_map]
      exact hcount ▸ g.rows.length_rowTerms_numbered hl.grouped hl.nodup_bucketFacets n
  · rintro v rfl r
    cases hk
    refine ⟨_, hrows r, ?_⟩
    rw [List.length_map, g.rows.rowTerms_of_ungrouped hl.grouped]
    split <;> decide

/-- How many robots a zone has and what they cost, for one zone. -/
def oneZone : Query :=
  ⟨"Robot", [.groupBy (some (.field "zone")), .select (some (.record
    [("n", .aggregate .count none), ("s", .aggregate .sum (some (.field "cost")))])),
    .take 3, .take 1]⟩

/-- Each facet has a single bucket, but not the same one. -/
def ofTwoZones : Response :=
  { facets := some [
      ("count", (FacetResult.terms [⟨.string "a", [("count", .nat 3)]⟩]).toJson),
      ("cost", (FacetResult.termsStats [⟨.string "b", [("total", .nat 5)]⟩]).toJson)] }

theorem within_ofTwoZones (h : oneZone.plan ⟨⟨Member.name, id⟩, ""⟩ = .ok p) :
    ofTwoZones.Within p.request := by
  cases h
  intro f hf n hn x hx
  rcases List.mem_cons.1 hf with rfl | hf
  · cases hn
    cases hx
    exact Nat.le_refl 1
  · cases List.mem_singleton.1 hf
    cases hn
    cases hx
    exact Nat.le_refl 1

theorem rows_of_takes_oneZone : ∃ p rows, oneZone.plan ⟨⟨Member.name, id⟩, ""⟩ = .ok p ∧
    ofTwoZones.Within p.request ∧ p.extractor.extract (some ofTwoZones) = .ok (.array rows) ∧
    rows.length ≤ 1 * 2 := by
  have h : plan ⟨⟨Member.name, id⟩, ""⟩ ⟨"Robot", [] ++ .groupBy (some (.field "zone")) ::
      .select (some (.record [("n", .aggregate .count none),
        ("s", .aggregate .sum (some (.field "cost")))])) :: [3, 1].map .take⟩ = .ok _ := rfl
  have hw := within_ofTwoZones h
  obtain ⟨rows, hrows, hlen⟩ := ((rows_of_takes h rfl).1 (.single "zone") rfl).1 ofTwoZones hw
  exact ⟨_, rows, rfl, hw, hrows, hlen⟩

/-- One row is asked for at most, but the facets have two terms. -/
theorem oneZone_has_two_rows : ∃ p, oneZone.plan ⟨⟨Member.name, id⟩, ""⟩ = .ok p ∧
    ofTwoZones.Within p.request ∧ p.extractor.extract (some ofTwoZones) = .ok (.array [
      .object [("n", .nat 3), ("s", .null)], .object [("n", .nat 0), ("s", .nat 5)]]) :=
  ⟨_, rfl, within_ofTwoZones rfl, rfl⟩

/-- Grouping by a constant makes one row exactly when an aggregate asks for a facet, and the key is
`null` in it. So the row of the group is there and holds its key only where an aggregate is projected
and the constant is `null` or not read. -/
theorem rows_of_constant {c : Json}
    (h : plan names
      ⟨docType, first ++ .groupBy (some (.constant c)) :: .select (some e) :: takes.map .take⟩ =
        .ok p)
    {r : Response} (hr : r.Complete p.request) :
    ∃ rows, p.extractor.extract (some r) = .ok (.array rows) ∧
      rows.length = (if e.cells.any Expr.isAggregate then 1 else 0) ∧
      (∀ row ∈ rows, ∀ i : Nat, e.cells[i]? = some .groupKey → e.cellOf row i = some .null) ∧
      ((rows.length = 1 ∧
          ∀ row ∈ rows, ∀ i : Nat, e.cells[i]? = some .groupKey → e.cellOf row i = some c) ↔
        e.cells.any Expr.isAggregate = true ∧ (.groupKey ∈ e.cells → c = .null)) := by
  obtain ⟨-, d, key, g, hd, hs, hp, hk, hg, rfl⟩ := plan_grouped_iff.1 h
  cases hk
  have hl := GroupedProjection.lowers_ofExpr hg
  have hfacets : (g.limitedTo (Draft.tightened takes none)).facets.isEmpty =
      !e.cells.any Expr.isAggregate := by
    rw [GroupedProjection.facets_limitedTo, List.isEmpty_map, hl.isEmpty_facets]
  have hterms : g.rows.rowTerms r = if e.cells.any Expr.isAggregate then [none] else [] := by
    rw [g.rows.rowTerms_of_ungrouped hl.grouped, hr.isEmpty.trans hfacets]
    cases e.cells.any Expr.isAggregate <;> rfl
  have hlength : ((g.rows.rowTerms r).map (g.rows.row r)).length =
      if e.cells.any Expr.isAggregate then 1 else 0 := by
    rw [List.length_map, hterms]
    split <;> rfl
  have hkeys : ∀ row ∈ (g.rows.rowTerms r).map (g.rows.row r), ∀ i : Nat,
      e.cells[i]? = some .groupKey → e.cellOf row i = some .null := by
    intro row hrow i hi
    obtain ⟨t, ht, rfl⟩ := List.mem_map.1 hrow
    -- The constant is not kept with the key, and nothing else stands for the group.
    have hnone : t = none := by
      rw [hterms] at ht
      split at ht
      · exact List.mem_singleton.1 ht
      · cases ht
    rw [GroupedProjection.cellOf_groupKey hg hi, hnone]
    rfl
  refine ⟨_, congrArg Except.ok (g.rows.extract_eq r), hlength, hkeys, ?_⟩
  constructor
  · rintro ⟨hone, hc⟩
    have ha : e.cells.any Expr.isAggregate = true := by
      rw [hlength] at hone
      by_contra hn
      simp [hn] at hone
    refine ⟨ha, fun hm => ?_⟩
    obtain ⟨i, hi⟩ := List.mem_iff_getElem?.1 hm
    obtain ⟨row, hrow⟩ := List.exists_mem_of_length_pos (hone ▸ Nat.one_pos)
    have heq := (hc row hrow i hi).symm.trans (hkeys row hrow i hi)
    exact Option.some.inj heq
  · rintro ⟨ha, hc⟩
    refine ⟨hlength.trans (if_pos ha), fun row hrow i hi => ?_⟩
    rw [hc (List.mem_of_getElem? hi)]
    exact hkeys row hrow i hi

/-- The key of the only group, which is one, and the number of robots in it. -/
def keyAndCount : Query :=
  ⟨"Robot", [.groupBy (some (.constant (.nat 1))),
    .select (some (.record [("k", .groupKey), ("n", .aggregate .count none)]))]⟩

/-- The key alone. -/
def keyOnly : Query :=
  ⟨"Robot", [.groupBy (some (.constant (.nat 1))), .select (some .groupKey)]⟩

def ofFour : Response := { facets := some [("count", (FacetResult.filter 4).toJson)] }

theorem complete_ofFour (h : keyAndCount.plan ⟨⟨Member.name, id⟩, ""⟩ = .ok p) :
    ofFour.Complete p.request := by
  cases h
  constructor
  · intro f hf
    cases List.mem_singleton.1 hf
    rfl
  · intro hnil
    cases hnil

theorem rows_of_constant_keyAndCount : ∃ p rows,
    keyAndCount.plan ⟨⟨Member.name, id⟩, ""⟩ = .ok p ∧ ofFour.Complete p.request ∧
    p.extractor.extract (some ofFour) = .ok (.array rows) ∧ rows.length = 1 ∧
    ∀ row ∈ rows, row.member? "k" = some .null := by
  have h : plan ⟨⟨Member.name, id⟩, ""⟩ ⟨"Robot", [] ++ .groupBy (some (.constant (.nat 1))) ::
      .select (some (.record [("k", .groupKey), ("n", .aggregate .count none)])) ::
        [].map .take⟩ = .ok _ := rfl
  have hr := complete_ofFour h
  obtain ⟨rows, hrows, hlen, hkeys, -⟩ := rows_of_constant h hr
  exact ⟨_, rows, rfl, hr, hrows, hlen, fun row hm => hkeys row hm 0 rfl⟩

/-- There is no row for the key alone, and beside a count the key is not that of the group. -/
theorem constant_key_lost :
    (∃ p, keyOnly.plan ⟨⟨Member.name, id⟩, ""⟩ = .ok p ∧ Response.Complete p.request {} ∧
      p.extractor.extract (some {}) = .ok (.array [])) ∧
    ∃ p, keyAndCount.plan ⟨⟨Member.name, id⟩, ""⟩ = .ok p ∧ ofFour.Complete p.request ∧
      p.extractor.extract (some ofFour) = .ok (.array [.object [("k", .null), ("n", .nat 4)]]) := by
  constructor
  · exact ⟨_, rfl, ⟨fun f hf => (List.not_mem_nil hf).elim, fun _ => rfl⟩, rfl⟩
  · exact ⟨_, rfl, complete_ofFour rfl, rfl⟩

end Query

end SearchQuery
