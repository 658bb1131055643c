import SearchQuery.Proofs.Answers
import SearchQuery.Proofs.Selection

/-!
The rows of a grouped projection: one per term of the facets with buckets, each aggregate with the
statistic that the facet it would have alone holds for the term.
-/

namespace SearchQuery

/-- The values without those that equal an earlier one. -/
def firstMet : List Json → List Json
  | [] => []
  | v :: rest => v :: (firstMet rest).filter fun w => !(v == w)

namespace GroupRows

/-- A term is new unless it equals one that was seen, and equals all terms that such a one does. -/
theorem foldl_insertTerm (seen terms : List Json) :
    terms.foldl insertTerm seen =
      seen ++ (firstMet terms).filter fun t => !seen.any (· == t) := by
  induction terms generalizing seen with
  | nil => simp [firstMet]
  | cons t rest ih =>
    rw [List.foldl_cons, ih, insertTerm, firstMet]
    cases hs : seen.any (· == t) with
    | true =>
      obtain ⟨s, hm, hst⟩ := List.any_eq_true.1 hs
      have hseen : ∀ u, (!seen.any (· == u)) = (!seen.any (· == u) && !(t == u)) := by
        intro u
        cases htu : t == u with
        | false => simp
        | true =>
          have hsu : seen.any (· == u) = true :=
            List.any_eq_true.2 ⟨s, hm, Json.same_trans hst htu⟩
          simp [hsu]
      rw [if_pos rfl, List.filter_cons, hs]
      simp only [Bool.not_true, Bool.false_eq_true, if_false, List.filter_filter]
      rw [← List.filter_congr fun u _ => hseen u]
    | false =>
      rw [if_neg Bool.false_ne_true, List.filter_cons, hs]
      simp only [Bool.not_false, if_true, List.filter_filter, List.append_assoc,
        List.singleton_append, List.any_append, List.any_cons, List.any_nil, Bool.or_false,
        Bool.not_or]

theorem terms_eq (x : GroupRows) (r : Response) :
    x.terms r =
      firstMet
        (((x.bucketFacets.filterMap r.facet?).flatMap FacetResult.buckets).map Bucket.term) := by
  rw [terms, foldl_insertTerm]
  simp

/-- The terms that rows are made for; a group of everything has no term. -/
def rowTerms (x : GroupRows) (r : Response) : List (Option Json) :=
  if (r.facets.getD []).isEmpty then []
  else if x.grouped then (x.terms r).map some
  else [none]

theorem extract_eq (x : GroupRows) (r : Response) :
    x.extract r = .array ((x.rowTerms r).map (x.row r)) := by
  rw [extract, rowTerms]
  split
  · rfl
  · split
    · rw [List.map_map]
      rfl
    · rfl

end GroupRows

/-- What a row holds for the cell at a position of the projection. -/
def Expr.cellOf (row : Json) (i : Nat) : Expr → Option Json
  | .record fields => (fields[i]?).bind fun m => row.member? m.1
  | _ => if i = 0 then some row else none

namespace GroupedProjection

theorem valueType_ne_record (e : Expr) (members : List String) : valueType e ≠ .record members := by
  fun_cases valueType e <;> simp

theorem names_of_columns {facets : List Facet} {cs : List Column} {fields : List (String × Expr)}
    (h : List.Forall₂ (fun m c => c.name = some m.1 ∧ Reads names key facets m.2 c.cell) fields
      cs) :
    cs.map (fun c => c.name.getD "") = fields.map Prod.fst := by
  induction h with
  | nil => rfl
  | cons hc _ ih => rw [List.map_cons, List.map_cons, ih, hc.1, Option.getD_some]

/-- A record keeps the values of all its columns, and a single column is the row. -/
theorem cellOf_row (h : ofExpr names key e = .ok p) {i : Nat} (hi : p.rows.columns[i]? = some c)
    (r : Response) (term : Option Json) :
    e.cellOf (p.rows.row r term) i = some (c.cell.value r term) := by
  rcases ofExpr_cases h with ⟨fields, facets, cs, rfl, hc, rfl⟩ | ⟨hne, facets, b, hc, rfl⟩
  · obtain ⟨-, hnd, hr⟩ := columns_spec hc
    obtain ⟨m, hm, hname, -⟩ := exists_of_forall₂ hr.flip hi
    have hn : ((cs.map fun c => (c.name.getD "", c.cell.value r term)).map Prod.fst).Nodup := by
      rw [List.map_map]
      exact (names_of_columns hr).symm ▸ hnd List.nodup_nil
    have hmem := List.mem_map_of_mem (f := fun c => (c.name.getD "", c.cell.value r term))
      (List.mem_of_getElem? hi)
    rw [hname] at hmem
    simp only [Expr.cellOf, hm, Option.bind_some, GroupRows.row, ofColumns, Json.member?,
      Members.ofList_of_nodup hn]
    exact Members.get?_of_mem hn hmem
  · have hrow : (ofColumns key (valueType e) facets [b]).rows.row r term = b.cell.value r term := by
      rw [GroupRows.row]
      split
      next members ht => exact absurd ht (valueType_ne_record e members)
      next => rfl
    cases i with
    | zero =>
      cases hi
      rw [hrow, Expr.cellOf]
      · rfl
      · exact hne
    | succ i => cases hi

end GroupedProjection

/-- A response has the answer to each facet under its name, given from the body alone. -/
def Response.Answers (answer : FacetBody → Json) (facets : List Facet) (r : Response) : Prop :=
  ∀ f ∈ facets, ∃ members, r.facets = some members ∧ members.get? f.name = some (answer f.body)

namespace Response

variable {facets : List Facet}

theorem Answers.facet? {r : Response} (h : r.Answers answer facets) (hf : f ∈ facets) :
    r.facet? f.name = FacetResult.ofJson? (answer f.body) := by
  obtain ⟨members, hm, hg⟩ := h f hf
  simp [Response.facet?, hm, hg]

theorem Answers.isEmpty {r : Response} (h : r.Answers answer facets) (hne : facets ≠ []) :
    (r.facets.getD []).isEmpty = false := by
  obtain ⟨f, hf⟩ := List.exists_mem_of_ne_nil facets hne
  obtain ⟨members, hm, hg⟩ := h f hf
  cases members with
  | nil => cases hg
  | cons => rw [hm]; rfl

theorem Answers.terms {r : Response} (h : r.Answers answer facets) :
    (((facets.map Facet.name).filterMap r.facet?).flatMap FacetResult.buckets).map Bucket.term =
      facets.flatMap fun f => Answer.terms (answer f.body) := by
  induction facets with
  | nil => rfl
  | cons f rest ih =>
    have hf := h.facet? (.head _)
    have hrest := ih fun g hg => h g (.tail _ hg)
    rw [List.map_cons, List.flatMap_cons, ← hrest, Answer.terms_eq, List.filterMap_cons, hf]
    cases FacetResult.ofJson? (answer f.body) <;> simp

end Response

namespace FacetBody

/-- Facets of one kind over the same fields, with equal filters and the same size. -/
inductive Equal : FacetBody → FacetBody → Prop
  | terms (h : (f == f') = true) : Equal (.terms fields f size) (.terms fields f' size)
  | termsStats (h : (f == f') = true) :
    Equal (.termsStats key value f size) (.termsStats key value f' size)
  | statistical (h : (f == f') = true) : Equal (.statistical fields f) (.statistical fields f')
  | filter (h : (c == c') = true) : Equal (.filter c) (.filter c')

/-- Facets that agree differ at most in their sizes. -/
theorem equal_of_agrees {g f : FacetBody} (h : g.agrees f = true) (hs : g.size? = f.size?) :
    g.Equal f := by
  unfold agrees at h
  split at h
  case h_1 =>
    obtain ⟨hfields, hf⟩ := Bool.and_eq_true_iff.1 h
    cases of_decide_eq_true hfields
    cases hs
    exact .terms hf
  case h_2 =>
    obtain ⟨hfields, hf⟩ := Bool.and_eq_true_iff.1 h
    obtain ⟨hkey, hvalue⟩ := Bool.and_eq_true_iff.1 hfields
    cases of_decide_eq_true hkey
    cases of_decide_eq_true hvalue
    cases hs
    exact .termsStats hf
  case h_3 =>
    obtain ⟨hfields, hf⟩ := Bool.and_eq_true_iff.1 h
    cases of_decide_eq_true hfields
    exact .statistical hf
  case h_4 => exact .filter h
  case h_5 => cases h

theorem Equal.limitedTo {g f : FacetBody} (h : g.Equal f) (limit : Option Nat) :
    (g.limitedTo limit).Equal (f.limitedTo limit) := by
  cases limit with
  | none => exact h
  | some n =>
    cases h with
    | terms h => exact .terms h
    | termsStats h => exact .termsStats h
    | statistical h => exact .statistical h
    | filter h => exact .filter h

/-- A facet that stands for another one is asked for the same, when both are limited alike. -/
theorem StandsFor.limitedTo {g f : FacetBody} (h : g.StandsFor f) (hs : g.size? = f.size?)
    (limit : Option Nat) :
    g.limitedTo limit = f.limitedTo limit ∨ (g.limitedTo limit).Equal (f.limitedTo limit) := by
  rcases h with rfl | h
  · exact .inl rfl
  · exact .inr ((equal_of_agrees h hs).limitedTo limit)

end FacetBody

namespace GroupedProjection

theorem size?_facet (h : facet names key a argument = .ok f) : f.body.size? = none := by
  cases a with
  | count =>
    obtain ⟨filter, -, h⟩ := bind_eq_ok_iff.1 h
    cases key <;> cases h <;> rfl
  | _ =>
    cases argument with
    | none => cases h
    | some e =>
      obtain ⟨field, -, h⟩ := bind_eq_ok_iff.1 h
      cases key <;> cases h <;> rfl

/-- Facets are limited only once all columns share them. -/
theorem Lowers.size? (h : Lowers names key e p) (hf : f ∈ p.facets) : f.body.size? = none := by
  rcases h.requested f hf with ⟨a, argument, g, -, hg, hb⟩ | ⟨k, rfl, rfl⟩
  · rw [hb]
    exact size?_facet hg
  · rfl

/-- An aggregate alone needs its own facet only. -/
theorem ofExpr_aggregate (h : facet names key a argument = .ok f) :
    ∃ p, ofExpr names key (.aggregate a argument) = .ok p ∧ p.facets = [f] := by
  have hc : column names key [] none (.aggregate a argument) = _ := column_aggregate h none
  rw [Facet.addTo_of_none rfl] at hc
  have ho : ofExpr names key (.aggregate a argument) = _ :=
    bind_eq_ok_iff.2 ⟨_, hc, rfl⟩
  refine ⟨_, ho, ?_⟩
  cases key <;> rfl

/-- The terms are those of the answers to the facets with buckets, as they were requested. -/
theorem Lowers.terms (h : Lowers names key e p) {limit : Option Nat} {r : Response}
    (hr : r.Answers answer (p.limitedTo limit).facets) :
    p.rows.terms r = firstMet (((p.limitedTo limit).facets.filter (·.body.hasBuckets)).flatMap
      fun f => Answer.terms (answer f.body)) := by
  have hb : r.Answers answer ((p.limitedTo limit).facets.filter (·.body.hasBuckets)) :=
    fun f hf => hr f (List.mem_filter.1 hf).1
  rw [GroupRows.terms_eq, h.bucketFacets_limitedTo limit, hb.terms]

/-- A column has the statistic of the facet that its aggregate asks for, shared or not. -/
theorem Lowers.value (h : Lowers names key e p) {i : Nat} {a : Aggregate} {argument : Option Expr}
    (hi : e.cells[i]? = some (.aggregate a argument)) {limit : Option Nat} {r : Response}
    (hr : r.Answers answer (p.limitedTo limit).facets)
    (ha : ∀ b c : FacetBody, b.Equal c → answer b = answer c) :
    ∃ f c, facet names key a argument = .ok f ∧ p.rows.columns[i]? = some c ∧
      ∀ term, c.cell.value r term =
        a.valueIn (some (answer (f.body.limitedTo limit))) term := by
  obtain ⟨cell, hcell, hreads⟩ := exists_of_forall₂ h.reads hi
  rw [List.getElem?_map, Option.map_eq_some_iff] at hcell
  obtain ⟨c, hc, rfl⟩ := hcell
  generalize hcc : c.cell = cell at hreads
  cases hreads with
  | @aggregate a argument f g hf hg hs =>
    refine ⟨f, c, hf, hc, fun term => ?_⟩
    have hmem : ⟨g.name, g.body.limitedTo limit⟩ ∈ (p.limitedTo limit).facets := by
      rw [facets_limitedTo]
      exact List.mem_map_of_mem hg
    have hsize : g.body.size? = f.body.size? := (h.size? hg).trans (size?_facet hf).symm
    have hanswer : answer (g.body.limitedTo limit) = answer (f.body.limitedTo limit) :=
      (hs.limitedTo hsize limit).elim (congrArg answer) (ha _ _)
    obtain ⟨members, hmembers, hget⟩ := hr _ hmem
    rw [hcc, Cell.value_statistic, hmembers, Option.bind_some, hget, hanswer]

theorem Lowers.rowTerms_of_key (h : Lowers names (some k) e p) {limit : Option Nat} {r : Response}
    (hr : r.Answers answer (p.limitedTo limit).facets) :
    p.rows.rowTerms r = (firstMet (((p.limitedTo limit).facets.filter (·.body.hasBuckets)).flatMap
      fun f => Answer.terms (answer f.body))).map some := by
  have hne : (p.limitedTo limit).facets ≠ [] := by
    rw [facets_limitedTo]
    simpa using h.nonempty k rfl
  rw [GroupRows.rowTerms, hr.isEmpty hne, h.grouped, ← h.terms hr]
  rfl

theorem Lowers.rowTerms_of_none (h : Lowers names none e p) {limit : Option Nat} {r : Response}
    (hr : r.Answers answer (p.limitedTo limit).facets) (hne : (p.limitedTo limit).facets ≠ []) :
    p.rows.rowTerms r = [none] := by
  rw [GroupRows.rowTerms, hr.isEmpty hne, h.grouped]
  rfl

theorem cellOf_groupKey (h : ofExpr names key e = .ok p) {i : Nat}
    (hi : e.cells[i]? = some .groupKey) (r : Response) (term : Option Json) :
    e.cellOf (p.rows.row r term) i = some (term.getD .null) := by
  obtain ⟨cell, hcell, hreads⟩ := exists_of_forall₂ (lowers_ofExpr h).reads hi
  rw [List.getElem?_map, Option.map_eq_some_iff] at hcell
  obtain ⟨c, hc, rfl⟩ := hcell
  rw [cellOf_row h hc]
  generalize c.cell = cell at hreads
  cases hreads
  rfl

end GroupedProjection

namespace Draft

def tightened (takes : List Nat) (limit : Option Nat) : Option Nat :=
  takes.foldl (fun limit n => some (tighten limit n)) limit

theorem runs_takes {limit : Option Nat} (hd : d.stage = .grouped g limit) (takes : List Nat) :
    Runs names d (takes.map .take) { d with stage := .grouped g (tightened takes limit) } := by
  induction takes generalizing d limit with
  | nil =>
    have he : { d with stage := .grouped g limit } = d := by rw [← hd]
    exact he ▸ .nil
  | cons n rest ih => exact .cons (.takeGroups hd) (ih rfl)

/-- A grouped chain collects nothing after its key but a projection and a limit. -/
theorem runs_grouped_iff {takes : List Nat} :
    Runs names d (.groupBy (some k) :: .select (some e) :: takes.map .take) d' ↔
      d.stage = .documents ∧ d.isPaged = false ∧ ∃ key g, groupKey names k = .ok key ∧
        GroupedProjection.ofExpr names key e = .ok g ∧
        d' = { d with stage := .grouped g (tightened takes none) } := by
  constructor
  · intro h
    cases h with
    | cons hgroup h =>
      cases hgroup with
      | groupBy hd hp hk =>
        cases h with
        | cons hselect h =>
          cases hselect with
          | select hs => cases hs
          | selectGroups hs hg =>
            cases hs
            refine ⟨hd, hp, _, _, hk, hg, ?_⟩
            have hr := foldlM_eq_ok_iff.2 h
            rw [foldlM_eq_ok_iff.2 (runs_takes rfl takes)] at hr
            cases hr
            rfl
  · rintro ⟨hd, hp, key, g, hk, hg, rfl⟩
    exact .cons (.groupBy hd hp hk) (.cons (.selectGroups rfl hg) (runs_takes rfl takes))

end Draft

theorem Expr.missing_of_mem_cells (h : missing e = []) (hx : x ∈ e.cells) : x.missing = [] := by
  cases e with
  | record fields =>
    rw [missing] at h
    obtain ⟨m, hm, rfl⟩ := List.mem_map.1 hx
    clear hx
    induction fields with
    | nil => cases hm
    | cons first rest ih =>
      obtain ⟨hfirst, hrest⟩ := List.append_eq_nil_iff.1 h
      rcases List.mem_cons.1 hm with rfl | hm
      · exact hfirst
      · exact ih hrest hm
  | _ =>
    rw [List.mem_singleton.1 hx]
    exact h

namespace Query

variable {names : FieldNames} {docType : String} {first : List Step} {k : Expr} {takes : List Nat}

theorem plan_grouped_iff :
    plan names ⟨docType, first ++ .groupBy (some k) :: .select (some e) :: takes.map .take⟩ =
        .ok p ↔
      (first.flatMap Step.missing = [] ∧ k.missing = [] ∧ e.missing = []) ∧
        ∃ d key g, Draft.Runs names {} first d ∧ d.stage = .documents ∧ d.isPaged = false ∧
          Draft.groupKey names k = .ok key ∧ GroupedProjection.ofExpr names key e = .ok g ∧
          p = ⟨d.facetRequest (names.naming.type docType)
            (g.limitedTo (Draft.tightened takes none)), .rows g.rows⟩ := by
  have htakes : (takes.map Step.take).flatMap Step.missing = [] := by
    simp [List.flatMap_map, Step.missing]
  have hmissing :
      missing ⟨docType, first ++ .groupBy (some k) :: .select (some e) :: takes.map .take⟩ = [] ↔
        first.flatMap Step.missing = [] ∧ k.missing = [] ∧ e.missing = [] := by
    simp [missing, Step.missing, htakes]
  rw [plan_eq_ok_iff, hmissing]
  apply and_congr_right'
  simp only [Draft.runs_append_iff, Draft.runs_grouped_iff]
  constructor
  · rintro ⟨_, ⟨d, hd, hs, hp, key, g, hk, hg, rfl⟩, h⟩
    rw [Draft.finish_grouped rfl, GroupedProjection.rows_limitedTo] at h
    cases h
    exact ⟨d, key, g, hd, hs, hp, hk, hg, rfl⟩
  · rintro ⟨d, key, g, hd, hs, hp, hk, hg, rfl⟩
    refine ⟨_, ⟨d, hd, hs, hp, key, g, hk, hg, rfl⟩, ?_⟩
    rw [Draft.finish_grouped rfl, GroupedProjection.rows_limitedTo]
    rfl

/-- Sharing and renaming of facets is not seen in the rows: whatever answers equal facets alike,
there is one row per term of the answers, and each aggregate has the value that is in the answer to
the facet that it asks for when it is projected alone. -/
theorem rows_of_answers
    (h : plan names ⟨docType, first ++ .groupBy (some k) :: .select (some e) :: takes.map .take⟩ =
      .ok p)
    {answer : FacetBody → Json} (ha : ∀ b c : FacetBody, b.Equal c → answer b = answer c)
    {r : Response} (hr : r.Answers answer p.request.facets) :
    ∃ terms rows, p.extractor.extract (some r) = .ok (.array rows) ∧
      (∀ m, k = .member m → terms =
        (firstMet ((p.request.facets.filter (·.body.hasBuckets)).flatMap fun f =>
          Answer.terms (answer f.body))).map some) ∧
      (∀ v, k = .constant v → p.request.facets ≠ [] → terms = [none]) ∧
      List.Forall₂ (fun t row => ∀ i : Nat, e.cells[i]? = some .groupKey →
        e.cellOf row i = some (t.getD .null)) terms rows ∧
      ∀ (i : Nat) (a : Aggregate) (argument : Option Expr),
        e.cells[i]? = some (.aggregate a argument) → ∃ own f,
          plan names ⟨docType, first ++ .groupBy (some k) ::
            .select (some (.aggregate a argument)) :: takes.map .take⟩ = .ok own ∧
          own.request.facets = [f] ∧
          List.Forall₂ (fun t row => e.cellOf row i =
            some (a.valueIn (some (answer f.body)) t)) terms rows := by
  obtain ⟨⟨hfirst, hkm, hem⟩, d, key, g, hd, hs, hp, hk, hg, rfl⟩ := plan_grouped_iff.1 h
  have hl := GroupedProjection.lowers_ofExpr hg
  refine ⟨g.rows.rowTerms r, (g.rows.rowTerms r).map (g.rows.row r),
    congrArg Except.ok (g.rows.extract_eq r), ?_, ?_, ?_, ?_⟩
  · rintro m rfl
    cases hk
    exact hl.rowTerms_of_key hr
  · rintro v rfl hne
    cases hk
    exact hl.rowTerms_of_none hr hne
  · rw [List.forall₂_map_right_iff, List.forall₂_same]
    intro t _ i hi
    exact GroupedProjection.cellOf_groupKey hg hi r t
  · intro i a argument hi
    obtain ⟨f, c, hf, hc, hvalue⟩ := hl.value hi hr ha
    obtain ⟨own, ho, hof⟩ := GroupedProjection.ofExpr_aggregate hf
    have hm := Expr.missing_of_mem_cells hem (List.mem_of_getElem? hi)
    refine ⟨_, ⟨f.name, f.body.limitedTo (Draft.tightened takes none)⟩,
      plan_grouped_iff.2 ⟨⟨hfirst, hkm, hm⟩, d, key, own, hd, hs, hp, hk, ho, rfl⟩, ?_, ?_⟩
    · exact (GroupedProjection.facets_limitedTo _ own).trans (by rw [hof]; rfl)
    · rw [List.forall₂_map_right_iff, List.forall₂_same]
      intro t _
      rw [GroupedProjection.cellOf_row hg hc, hvalue]

/-- The zones of robots with their numbers, or with the sums of a field, whatever the field. -/
def zoneAnswer : FacetBody → Json
  | .terms .. => .object [("_type", .string "terms"), ("terms", .array [
      .object [("term", .string "a"), ("count", .nat 3)],
      .object [("term", .string "b"), ("count", .nat 1)]])]
  | .termsStats .. => .object [("_type", .string "terms_stats"), ("terms", .array [
      .object [("term", .string "b"), ("count", .nat 1), ("total", .nat 7)],
      .object [("term", .string "c"), ("count", .nat 1), ("total", .nat 2)]])]
  | _ => .null

def zoneResponse : Response :=
  { facets := some [("count", zoneAnswer (.terms ["zone"] none (some 3))),
    ("count_1", zoneAnswer (.termsStats "zone" "count" none (some 3)))] }

/-- A count and the sum of a field that is called `count`, as members `n` and `s`. -/
def zoneRows : List Json :=
  [.object [("n", .nat 3), ("s", .null)], .object [("n", .nat 1), ("s", .nat 7)],
    .object [("n", .nat 0), ("s", .nat 2)]]

/-- The sum reads the facet that was renamed, and a zone that only one of them has is in the rows. -/
theorem rows_of_answers_renamed : ∃ p counted summed f g terms,
    plan ⟨⟨Member.name, id⟩, ""⟩ ⟨"Robot", [.groupBy (some (.field "zone")), .select (some (.record
      [("n", .aggregate .count none), ("s", .aggregate .sum (some (.field "count")))])),
      .take 3]⟩ = .ok p ∧
    p.extractor.extract (some zoneResponse) = .ok (.array zoneRows) ∧
    terms = [.string "a", .string "b", .string "c"] ∧
    terms = firstMet ((p.request.facets.filter (·.body.hasBuckets)).flatMap fun f =>
      Answer.terms (zoneAnswer f.body)) ∧
    plan ⟨⟨Member.name, id⟩, ""⟩ ⟨"Robot", [.groupBy (some (.field "zone")),
      .select (some (.aggregate .count none)), .take 3]⟩ = .ok counted ∧
    counted.request.facets = [f] ∧ f.name = "count" ∧
    List.Forall₂ (fun t row => row.member? "n" =
      some (Aggregate.count.valueIn (some (zoneAnswer f.body)) (some t))) terms zoneRows ∧
    plan ⟨⟨Member.name, id⟩, ""⟩ ⟨"Robot", [.groupBy (some (.field "zone")),
      .select (some (.aggregate .sum (some (.field "count")))), .take 3]⟩ = .ok summed ∧
    summed.request.facets = [g] ∧ g.name = "count" ∧
    List.Forall₂ (fun t row => row.member? "s" =
      some (Aggregate.sum.valueIn (some (zoneAnswer g.body)) (some t))) terms zoneRows := by
  have h : plan ⟨⟨Member.name, id⟩, ""⟩ ⟨"Robot", [] ++ .groupBy (some (.field "zone")) ::
      .select (some (.record [("n", .aggregate .count none),
        ("s", .aggregate .sum (some (.field "count")))])) :: [3].map .take⟩ = .ok _ := rfl
  have ha : ∀ b c : FacetBody, b.Equal c → zoneAnswer b = zoneAnswer c := by
    intro b c hbc
    cases hbc <;> rfl
  have hr : zoneResponse.Answers zoneAnswer [⟨"count", .terms ["zone"] none (some 3)⟩,
      ⟨"count_1", .termsStats "zone" "count" none (some 3)⟩] :=
    List.forall_mem_cons.2 ⟨⟨_, rfl, rfl⟩, List.forall_mem_cons.2 ⟨⟨_, rfl, rfl⟩, by simp⟩⟩
  obtain ⟨terms, rows, hrows, hterms, -, -, hcells⟩ := rows_of_answers h ha hr
  obtain rfl : rows = zoneRows := Json.array.inj (Except.ok.inj (hrows.symm.trans rfl))
  obtain ⟨counted, f, hcounted, hf, hn⟩ := hcells 0 .count none rfl
  obtain ⟨summed, g, hsummed, hg, hs⟩ := hcells 1 .sum (some (.field "count")) rfl
  rw [hterms _ rfl, List.forall₂_map_left_iff] at hn hs
  refine ⟨_, counted, summed, f, g, _, rfl, hrows, rfl, rfl, hcounted, hf, ?_, hn, hsummed, hg, ?_,
    hs⟩
  · cases hcounted
    cases hf
    rfl
  · cases hsummed
    cases hg
    rfl

end Query

end SearchQuery
