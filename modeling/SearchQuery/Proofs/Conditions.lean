import SearchQuery.Proofs.NormalForm

/-!
The filter of a request is the criteria of all conditions of the chain as a single predicate. The
chain conjoins its conditions at once and the predicate one after another: a conjunction that is
made already stays as it is when more is added, since its ranges are apart and none merges anew.
-/

namespace SearchQuery

namespace Bound

variable {existing incoming bounds : List Bound}

/-- A bound is not put into a range that has one of its kind which it clashes with. -/
theorem insert_eq_none_of_clashes {a b : Bound} (hn : (bounds.map kind).Nodup) (ha : a ∈ bounds)
    (hc : a.Clashes b) : b.insert bounds = none := by
  rw [Option.eq_none_iff_forall_ne_some]
  intro merged h
  induction bounds generalizing merged with
  | nil => cases ha
  | cons first rest ih =>
    rw [List.map_cons, List.nodup_cons] at hn
    rcases insert_cons h with ⟨hk, x, y, hx, hy, -⟩ | ⟨hk, tail, ht, -⟩
    · rcases List.mem_cons.1 ha with rfl | hr
      · exact hc.2 ⟨Json.isNumber_iff.2 ⟨x, hx⟩, Json.isNumber_iff.2 ⟨y, hy⟩⟩
      · have hkind : a.kind = first.kind := hc.1.trans hk.symm
        exact hn.1 (hkind ▸ List.mem_map_of_mem hr)
    · rcases List.mem_cons.1 ha with rfl | hr
      · exact hk hc.1
      · exact ih hn.2 hr tail ht

/-- Ranges that are apart are not merged: the bound that is in the way may give way to another one,
but not to a number. -/
theorem Apart.merge_eq_none (h : Apart existing incoming) (hn : (existing.map kind).Nodup) :
    Bound.merge existing incoming = none := by
  obtain ⟨a, ha, b, hb, hc⟩ := h
  induction incoming generalizing existing a with
  | nil => cases hb
  | cons first rest ih =>
    rw [merge_cons]
    rcases List.mem_cons.1 hb with rfl | hr
    · rw [insert_eq_none_of_clashes hn ha hc]
      rfl
    · cases hi : first.insert existing with
      | none => rfl
      | some bounds =>
        obtain ⟨c, hm, hk, hv⟩ := exists_of_mem_insert hi ha
        have hclash : c.Clashes b := by
          constructor
          · exact hk.trans hc.1
          · rw [hv]
            exact hc.2
        exact ih (nodup_kinds_insert hn hi) c hm hr hclash

end Bound

namespace Criteria

/-- A range that is apart from all others goes to the end. -/
theorem insertRange_of_apart {must : List Criteria} (hn : ∀ c ∈ must, c.Normal)
    (h : ∀ c ∈ must, c.Apart (.range field bounds)) :
    insertRange field bounds must = must ++ [.range field bounds] := by
  fun_induction insertRange field bounds must with
  | case1 => rfl
  | case2 existing rest merged hm =>
    have hapart := h _ (.head _) _ _ _ rfl rfl
    rw [hapart.merge_eq_none (proper_of_normal (hn _ (.head _))).kinds] at hm
    cases hm
  | case3 existing rest _ ih | case4 f existing rest _ ih | case5 c rest _ ih =>
    rw [List.forall_mem_cons] at hn h
    rw [ih hn.2 h.2]
    rfl

theorem insertConjunct_of_apart {must : List Criteria} (hn : ∀ c ∈ must, c.Normal)
    (h : ∀ b ∈ must, b.Apart c) : insertConjunct must c = must ++ [c] := by
  unfold insertConjunct
  split
  · exact insertRange_of_apart hn h
  · rfl

/-- Conjuncts that were put together are put together again without a change. -/
theorem Conjuncts.foldl_insertConjunct {must cs : List Criteria} (h : Conjuncts (must ++ cs)) :
    cs.foldl insertConjunct must = must ++ cs := by
  induction cs generalizing must with
  | nil => simp
  | cons c rest ih =>
    have hn : ∀ b ∈ must, b.Normal := fun b hb => h.normal b (List.mem_append_left _ hb)
    have ha : ∀ b ∈ must, b.Apart c := by
      intro b hb
      exact (List.pairwise_append.1 h.apart).2.2 b hb c (.head _)
    rw [List.append_cons] at h ⊢
    rw [List.foldl_cons, insertConjunct_of_apart hn ha, ih h]

theorem IsConjunct.conjuncts_eq {c : Criteria} (h : c.IsConjunct) : c.conjuncts = [c] := by
  unfold conjuncts
  split
  next must => exact absurd rfl (h.2 must)
  · exact absurd rfl h.1
  · rfl

/-- A conjunction comes apart into what was put together for it. -/
theorem conjuncts_all {cs : List Criteria} (h : ∀ c ∈ cs, c.Normal) :
    (all cs).conjuncts = (cs.flatMap conjuncts).foldl insertConjunct [] := by
  have hall := conjuncts_of_normal h
  rw [all]
  split
  next he =>
    rw [he]
    rfl
  next c he =>
    rw [he] at hall ⊢
    exact (hall.flat c (.head _)).conjuncts_eq
  · rfl

/-- More can be added to a conjunction as if it had not been made yet. -/
theorem all_all_append {cs : List Criteria} (h : ∀ c ∈ cs, c.Normal) (ds : List Criteria) :
    all (all cs :: ds) = all (cs ++ ds) := by
  have hagain : (all cs).conjuncts.foldl insertConjunct [] = (all cs).conjuncts := by
    have hall := conjuncts_of_normal h
    rw [← conjuncts_all h] at hall
    exact Conjuncts.foldl_insertConjunct hall
  have hfold : ((all cs :: ds).flatMap conjuncts).foldl insertConjunct [] =
      ((cs ++ ds).flatMap conjuncts).foldl insertConjunct [] := by
    rw [List.flatMap_cons, List.foldl_append, hagain, conjuncts_all h, List.flatMap_append,
      List.foldl_append]
  rw [all, hfold, all]

theorem all_singleton {c : Criteria} (h : c.Normal) : all [c] = c := by
  cases h with
  | @must must hl hn hf ha =>
    have hmust : Conjuncts ([] ++ must) := ⟨hn, hf, ha⟩
    have hagain : must.foldl insertConjunct [] = must := hmust.foldl_insertConjunct
    rw [all, List.flatMap_singleton, conjuncts, hagain]
    split
    · cases hl
    · simp at hl
    · rfl
  | @should should hl =>
    have hne : should ≠ [] := by
      rintro rfl
      simp at hl
    have hf : (bool [] should []).IsConjunct := by
      constructor
      · rintro ⟨⟩
      · rintro items he
        cases he
        exact hne rfl
    rw [all, List.flatMap_singleton, hf.conjuncts_eq]
    rfl
  | _ => rfl

/-- The criteria, unless they hold of every document. -/
def nontrivial? : Criteria → Option Criteria
  | .matchAll => none
  | c => some c

theorem all?_eq_nontrivial? (cs : List Criteria) : all? cs = (all cs).nontrivial? := rfl

end Criteria

namespace Expr

/-- The expressions joined by `and` from the left, none when there are none. -/
def conjunction? : List Expr → Option Expr
  | [] => none
  | e :: rest => some (rest.foldl and e)

/-- The criteria of a conjunction of predicates are the conjunction of their criteria, and it is
refused for the first of them that has none. -/
theorem criteria_foldl_and (names : FieldNames) (e : Expr) (rest : List Expr) :
    (rest.foldl and e).criteria names =
      ((e :: rest).mapM (criteria names)).map Criteria.all := by
  induction rest generalizing e with
  | nil =>
    rw [List.foldl_nil, List.mapM_cons, List.mapM_nil]
    cases h : e.criteria names with
    | error => rfl
    | ok c => exact congrArg Except.ok (Criteria.all_singleton (normal_criteria h)).symm
  | cons next rest ih =>
    rw [List.foldl_cons, ih, List.mapM_cons, List.mapM_cons, List.mapM_cons, criteria]
    cases he : e.criteria names with
    | error => rfl
    | ok c =>
      cases hn : next.criteria names with
      | error => rfl
      | ok d =>
        have hnormal : ∀ b ∈ [c, d], b.Normal := by
          simp [normal_criteria he, normal_criteria hn]
        cases rest.mapM (criteria names) with
        | error => rfl
        | ok cs => exact congrArg Except.ok (Criteria.all_all_append hnormal cs)

/-- The missing arguments of a conjunction are those of its predicates. -/
theorem missing_foldl_and (e : Expr) (rest : List Expr) :
    (rest.foldl and e).missing = (e :: rest).flatMap missing := by
  induction rest generalizing e with
  | nil => simp
  | cons next rest ih => simp [ih, missing]

theorem criteria_conjunction? {es : List Expr} (h : conjunction? es = some e)
    (names : FieldNames) :
    e.criteria names = (es.mapM (criteria names)).map Criteria.all := by
  cases es with
  | nil => cases h
  | cons first rest =>
    cases h
    exact criteria_foldl_and names first rest

theorem missing_conjunction? {es : List Expr} (h : conjunction? es = some e) :
    e.missing = es.flatMap missing := by
  cases es with
  | nil => cases h
  | cons first rest =>
    cases h
    exact missing_foldl_and first rest

end Expr

/-- The predicates that an operation only keeps documents by. -/
def Step.conditions : Step → List Expr
  | .filter predicate | .execute _ predicate => predicate.toList
  | _ => []

theorem Step.missing_of_mem_conditions {s : Step} (hs : s.missing = []) (he : e ∈ s.conditions) :
    e.missing = [] := by
  cases s with
  | filter predicate | execute _ predicate =>
    rw [conditions, Option.mem_toList] at he
    cases he
    exact hs
  | _ => cases he

namespace Draft

/-- The filters are the criteria of the conditions so far, in their order. -/
theorem Next.filters (h : Next names d s d') :
    ∃ cs, s.conditions.mapM (Expr.criteria names) = .ok cs ∧ d'.filters = d.filters ++ cs := by
  cases h with
  | @filter e c _ hc =>
    refine ⟨[c], ?_, rfl⟩
    rw [Step.conditions, Option.toList_some, List.mapM_cons, hc]
    rfl
  | @execute predicate terminal cs _ hc => exact ⟨cs, hc, rfl⟩
  | orderBy => exact ⟨[], rfl, by simp [order]⟩
  | orderByScore => exact ⟨[], rfl, by simp [order]⟩
  | _ => exact ⟨[], rfl, (List.append_nil _).symm⟩

theorem Runs.filters (h : Runs names d steps d') :
    ∃ cs, (steps.flatMap Step.conditions).mapM (Expr.criteria names) = .ok cs ∧
      d'.filters = d.filters ++ cs := by
  induction h with
  | nil => exact ⟨[], rfl, (List.append_nil _).symm⟩
  | cons hs _ ih =>
    obtain ⟨cs, hc, hf⟩ := hs.filters
    obtain ⟨ds, hd, hr⟩ := ih
    refine ⟨cs ++ ds, ?_, ?_⟩
    · rw [List.flatMap_cons, List.mapM_append, hc, hd]
      rfl
    · rw [hr, hf, List.append_assoc]

/-- Conditions that have criteria may be given one after another. -/
theorem runs_filters {d : Draft} {es : List Expr} (hd : d.stage = .documents)
    (h : es.mapM (Expr.criteria names) = .ok cs) :
    Runs names d (es.map fun e => .filter (some e)) { d with filters := d.filters ++ cs } := by
  induction es generalizing d cs with
  | nil =>
    rw [List.mapM_nil] at h
    cases h
    rw [List.append_nil]
    exact .nil
  | cons e rest ih =>
    rw [List.mapM_cons] at h
    obtain ⟨c, hc, h⟩ := bind_eq_ok_iff.1 h
    obtain ⟨tail, ht, h⟩ := bind_eq_ok_iff.1 h
    cases h
    have hrest := ih (d := { d with filters := d.filters ++ [c] }) hd ht
    rw [List.append_assoc] at hrest
    exact .cons (.filter hd hc) hrest

end Draft

namespace Query

/-- The predicates that decide which documents a query keeps, without ranking them. -/
def conditions (q : Query) : List Expr := q.steps.flatMap Step.conditions

/-- The chain of conditions, with a terminal that has the last one, if any. -/
def ofConditions (docType : String) (es : List Expr) (last : Option (Terminal × Expr)) : Query :=
  ⟨docType, es.map (fun e => .filter (some e)) ++
    last.toList.map fun x => .execute x.1 (some x.2)⟩

variable (docType : String) (es : List Expr) (last : Option (Terminal × Expr))

theorem conditions_ofConditions :
    (ofConditions docType es last).conditions = es ++ last.toList.map Prod.snd := by
  cases last <;> simp [conditions, ofConditions, List.flatMap_map, Step.conditions]

theorem missing_ofConditions :
    (ofConditions docType es last).missing =
      (ofConditions docType es last).conditions.flatMap Expr.missing := by
  rw [conditions_ofConditions]
  cases last <;> simp [missing, ofConditions, List.flatMap_map, Step.missing]

/-- A chain of conditions is accepted when each of them has criteria. -/
theorem plan_ofConditions {names : FieldNames}
    (hm : (ofConditions docType es last).conditions.flatMap Expr.missing = [])
    (hc : (ofConditions docType es last).conditions.mapM (Expr.criteria names) = .ok cs) :
    ∃ p, (ofConditions docType es last).plan names = .ok p := by
  rw [← missing_ofConditions] at hm
  rw [conditions_ofConditions, List.mapM_append] at hc
  obtain ⟨as, ha, hc⟩ := bind_eq_ok_iff.1 hc
  obtain ⟨bs, hb, -⟩ := bind_eq_ok_iff.1 hc
  have hfirst := Draft.runs_filters (d := {}) rfl ha
  cases last with
  | none =>
    have hruns := Draft.runs_append_iff.2 ⟨_, hfirst, .nil⟩
    exact ⟨_, plan_eq_ok_iff.2 ⟨hm, _, hruns, rfl⟩⟩
  | some x =>
    have hruns : Draft.Runs names {} (ofConditions docType es (some x)).steps
        { filters := as ++ bs, stage := .executed x.1 .source } :=
      Draft.runs_append_iff.2 ⟨_, hfirst, .cons (.execute rfl hb) .nil⟩
    obtain ⟨terminal, e⟩ := x
    cases terminal <;> exact ⟨_, plan_eq_ok_iff.2 ⟨hm, _, hruns, rfl⟩⟩

theorem missing_conditions {q : Query} (h : q.missing = []) :
    q.conditions.flatMap Expr.missing = [] := by
  rw [missing, List.flatMap_eq_nil_iff] at h
  rw [List.flatMap_eq_nil_iff]
  intro e he
  obtain ⟨s, hs, he⟩ := List.mem_flatMap.1 he
  exact Step.missing_of_mem_conditions (h s hs) he

/-- The filter of a request is the criteria of the conditions joined to one predicate. -/
theorem filter_of_plan {q : Query} {names : FieldNames} (h : q.plan names = .ok p)
    (he : Expr.conjunction? q.conditions = some e) :
    ∃ c, e.criteria names = .ok c ∧ p.request.filter = c.nontrivial? := by
  obtain ⟨-, d, hruns, hfinish⟩ := plan_eq_ok_iff.1 h
  obtain ⟨cs, hcs, hfilters⟩ := hruns.filters
  obtain ⟨hfilter, -⟩ := Draft.finish_request hfinish
  rw [hfilters, List.nil_append, Criteria.all?_eq_nontrivial?] at hfilter
  refine ⟨Criteria.all cs, ?_, hfilter⟩
  rw [Expr.criteria_conjunction? he, conditions, hcs]
  rfl

/-- The filter of a request is the criteria of all conditions of the chain joined by `and` from the
left, whatever stands between them; so it is that of every chain whose conditions are joined to the
same predicate. -/
theorem filter_eq_conjunction {q : Query} {names : FieldNames} (h : q.plan names = .ok p)
    (he : Expr.conjunction? q.conditions = some e) :
    (∃ c, e.criteria names = .ok c ∧ p.request.filter = c.nontrivial?) ∧
      ∀ docType es last, Expr.conjunction? (ofConditions docType es last).conditions = some e →
        ∃ p', (ofConditions docType es last).plan names = .ok p' ∧
          p'.request.filter = p.request.filter := by
  obtain ⟨c, hc, hfilter⟩ := filter_of_plan h he
  constructor
  · exact ⟨c, hc, hfilter⟩
  · intro docType es last he'
    have hmissing : (ofConditions docType es last).conditions.flatMap Expr.missing = [] := by
      rw [← Expr.missing_conjunction? he', Expr.missing_conjunction? he]
      exact missing_conditions (plan_eq_ok_iff.1 h).1
    have hcriteria := Expr.criteria_conjunction? he' names
    cases hcs : (ofConditions docType es last).conditions.mapM (Expr.criteria names) with
    | error =>
      rw [hc, hcs] at hcriteria
      cases hcriteria
    | ok cs =>
      obtain ⟨p', hp'⟩ := plan_ofConditions docType es last hmissing hcs
      obtain ⟨c', hc', hfilter'⟩ := filter_of_plan hp' he'
      rw [hc] at hc'
      cases hc'
      exact ⟨p', hp', hfilter'.trans hfilter.symm⟩

/-- Three bounds of a field; the second can not be merged with the first, and the third can. -/
def costBounds : List Expr :=
  [.compare .gt (.field "cost") (.constant (.nat 5)),
    .compare .gt (.field "cost") (.constant (.string "m")),
    .compare .lt (.field "cost") (.constant (.nat 7))]

/-- The bounds around an ordering and a query, the last of them for the count. -/
def spread : Query :=
  ⟨"Robot", [.filter costBounds[0]?, .orderBy (some (.field "name")) true false,
    .filter costBounds[1]?, .queryString (some "arm"), .execute .count costBounds[2]?]⟩

theorem filter_eq_conjunction_spread :
    ∃ e p single chain, Expr.conjunction? costBounds = some e ∧
      spread.plan ⟨⟨Member.name, id⟩, ""⟩ = .ok p ∧
      (ofConditions "Robot" [e] none).plan ⟨⟨Member.name, id⟩, ""⟩ = .ok single ∧
      (ofConditions "Robot" costBounds none).plan ⟨⟨Member.name, id⟩, ""⟩ = .ok chain ∧
      p.request.filter = some (.bool [.range "cost" [⟨.above, .nat 5⟩, ⟨.below, .nat 7⟩],
        .range "cost" [⟨.above, .string "m"⟩]] [] []) ∧
      single.request.filter = p.request.filter ∧ chain.request.filter = p.request.filter := by
  have h : spread.plan ⟨⟨Member.name, id⟩, ""⟩ = .ok _ := rfl
  have he : Expr.conjunction? spread.conditions = some _ := rfl
  obtain ⟨⟨c, hc, hf⟩, hsame⟩ := filter_eq_conjunction h he
  obtain ⟨single, hs, hsf⟩ := hsame "Robot" [_] none rfl
  obtain ⟨chain, hl, hlf⟩ := hsame "Robot" costBounds none rfl
  cases hc
  exact ⟨_, _, single, chain, rfl, h, hs, hl, hf, hsf, hlf⟩

end Query

end SearchQuery
