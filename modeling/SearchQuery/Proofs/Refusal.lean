import SearchQuery.Proofs.Acceptance

/-!
Why queries are refused: first of all for an argument that they lack, then for a name that a grouped
record repeats or for what no request can express, whichever comes first.
-/

namespace SearchQuery

theorem bind_eq_error_iff {x : Except ε α} {f : α → Except ε β} :
    (x >>= f) = .error err ↔ x = .error err ∨ ∃ a, x = .ok a ∧ f a = .error err := by
  cases x <;> simp [bind, Except.bind]

/-- What fails does so because no request can express it. -/
def OnlyUnsupported (x : Except Error α) : Prop :=
  ∀ err, x = .error err → ∃ cause, err = .unsupported cause

namespace OnlyUnsupported

theorem ok (a : α) : OnlyUnsupported (.ok a) := by
  rintro err ⟨⟩

theorem unsupported (cause : Unsupported) :
    OnlyUnsupported (.error (.unsupported cause) : Except Error α) := by
  rintro err ⟨⟩
  exact ⟨cause, rfl⟩

theorem bind {f : α → Except Error β} (hx : OnlyUnsupported x) (hf : ∀ a, OnlyUnsupported (f a)) :
    OnlyUnsupported (x >>= f) := by
  intro err h
  rcases bind_eq_error_iff.1 h with h | ⟨a, -, h⟩
  · exact hx err h
  · exact hf a err h

theorem mapM {f : α → Except Error β} (hf : ∀ a, OnlyUnsupported (f a)) (xs : List α) :
    OnlyUnsupported (xs.mapM f) := by
  induction xs with
  | nil => exact ok []
  | cons x rest ih =>
    rw [List.mapM_cons]
    exact (hf x).bind fun y => ih.bind fun ys => ok _

end OnlyUnsupported

theorem onlyUnsupported_fieldOf (names : FieldNames) (place : MemberPlace) (e : Expr) :
    OnlyUnsupported (names.fieldOf place e) := by
  cases e with
  | member => exact .ok _
  | _ => exact .unsupported _

theorem Criteria.onlyUnsupported_bounded (field : String) (k : BoundKind) (v : Json) :
    OnlyUnsupported (bounded field k v) := by
  rw [bounded]
  split
  · exact .unsupported _
  · exact .ok _

theorem Expr.onlyUnsupported_compareCriteria (names : FieldNames) (op : Comparison)
    (left right : Expr) : OnlyUnsupported (compareCriteria names op left right) := by
  have hc (m : Member) (op : Comparison) (v : Json) :
      OnlyUnsupported (Criteria.compare (names.field m) op v) := by
    cases op with
    | eq | ne => exact .ok _
    | gt | ge | lt | le => exact Criteria.onlyUnsupported_bounded _ _ _
  unfold compareCriteria
  split
  · exact hc _ _ _
  · exact hc _ _ _
  · exact .unsupported _

theorem Expr.onlyUnsupported_criteria (names : FieldNames) (e : Expr) :
    OnlyUnsupported (e.criteria names) := by
  fun_induction criteria names e with
  | case1 op left right => exact onlyUnsupported_compareCriteria names op left right
  | case2 left right ihl ihr => exact ihl.bind fun l => ihr.bind fun r => .ok _
  | case3 left right ihl ihr => exact ihl.bind fun l => ihr.bind fun r => .ok _
  | case4 e ih => exact ih.bind fun c => .ok _
  | case5 => exact .ok _
  | case6 => exact .ok _
  | case7 => exact .ok _
  | case8 => exact .ok _
  | case9 => exact .unsupported _

theorem Projection.onlyUnsupported_ofExpr (names : FieldNames) (e : Expr) :
    OnlyUnsupported (ofExpr names e) := by
  cases e with
  | member => exact .ok _
  | record columns =>
    refine .bind (.mapM ?_ columns) fun members => .ok _
    rintro ⟨name, e⟩
    exact (onlyUnsupported_fieldOf names .select e).bind fun f => .ok _
  | _ => exact .unsupported _

theorem Draft.onlyUnsupported_groupKey (names : FieldNames) (e : Expr) :
    OnlyUnsupported (groupKey names e) := by
  cases e with
  | member | constant => exact .ok _
  | _ => exact .unsupported _

namespace GroupedProjection

theorem onlyUnsupported_facet (names : FieldNames) (key : Option String)
    (hc : (Expr.aggregate a argument).Complete) :
    OnlyUnsupported (facet names key a argument) := by
  cases argument with
  | none =>
    obtain rfl := hc a .refl
    cases key <;> exact .ok _
  | some e =>
    cases a with
    | count =>
      have hf : OnlyUnsupported ((some e).mapM (Expr.criteria names)) := by
        rw [Option.mapM_some]
        exact (Expr.onlyUnsupported_criteria names e).bind fun c => .ok _
      refine hf.bind fun filter => ?_
      cases key <;> exact .ok _
    | _ =>
      refine (onlyUnsupported_fieldOf names _ e).bind fun value => ?_
      cases key <;> exact .ok _

theorem onlyUnsupported_column (names : FieldNames) (key : Option String) (facets : List Facet)
    (name : Option String) (he : e.Complete) :
    OnlyUnsupported (column names key facets name e) := by
  cases e with
  | groupKey => exact .ok _
  | aggregate a argument =>
    exact (onlyUnsupported_facet names key he).bind fun f => .ok _
  | _ => exact .unsupported _

theorem columns_error {facets : List Facet} {before : List String} {fields : List (String × Expr)}
    (hc : ∀ f ∈ fields, f.2.Complete) (h : columns names key facets before fields = .error err) :
    (∃ cause, err = .unsupported cause) ∨
      ∃ name, err = .duplicateMember name ∧ ∃ first e rest, fields = first ++ (name, e) :: rest ∧
        (∃ r, columns names key facets before first = .ok r) ∧
        name ∈ before ++ first.map Prod.fst := by
  induction fields generalizing facets before with
  | nil => cases h
  | cons f rest ih =>
    obtain ⟨name, e⟩ := f
    rw [List.forall_mem_cons] at hc
    by_cases hn : name ∈ before
    · rw [columns_of_mem hn] at h
      cases h
      exact .inr ⟨name, rfl, [], e, rest, rfl, ⟨_, rfl⟩, by simpa using hn⟩
    · rw [columns_of_notMem hn] at h
      rcases bind_eq_error_iff.1 h with h | ⟨r, hr, h⟩
      · exact .inl (onlyUnsupported_column names key facets _ hc.1 err h)
      rcases bind_eq_error_iff.1 h with h | ⟨t, -, h⟩
      · rcases ih hc.2 h with hu | ⟨other, rfl, first, e', rest, rfl, ⟨t, ht⟩, hm⟩
        · exact .inl hu
        · refine .inr ⟨other, rfl, (name, e) :: first, e', rest, rfl, ?_, by simpa using hm⟩
          rw [columns_of_notMem hn]
          exact ⟨_, bind_eq_ok_iff.2 ⟨r, hr, bind_eq_ok_iff.2 ⟨t, ht, rfl⟩⟩⟩
      · cases h

theorem columns_of_repeated {facets : List Facet} {before : List String}
    {first : List (String × Expr)} (hr : columns names key facets before first = .ok r)
    (hn : name ∈ before ++ first.map Prod.fst) (e : Expr) (rest : List (String × Expr)) :
    columns names key facets before (first ++ (name, e) :: rest) =
      .error (.duplicateMember name) := by
  induction first generalizing facets before r with
  | nil => exact columns_of_mem (by simpa using hn) rest
  | cons f first ih =>
    obtain ⟨other, e'⟩ := f
    by_cases ho : other ∈ before
    · rw [columns_of_mem ho] at hr
      cases hr
    · rw [columns_of_notMem ho] at hr
      obtain ⟨c, hc, hr⟩ := bind_eq_ok_iff.1 hr
      obtain ⟨t, ht, -⟩ := bind_eq_ok_iff.1 hr
      rw [List.cons_append, columns_of_notMem ho, hc]
      apply bind_eq_error_iff.2
      refine .inr ⟨c, rfl, bind_eq_error_iff.2 (.inl ?_)⟩
      exact ih ht (by simpa using hn)

/-- The first fault of a record is a name that one of the columns before has already. -/
def RepeatsFirst (fields : List (String × Expr)) (name : String) : Prop :=
  ∃ first e rest, fields = first ++ (name, e) :: rest ∧ (first.map Prod.fst).Nodup ∧
    (∀ f ∈ first, f.2.IsColumn) ∧ name ∈ first.map Prod.fst

theorem ofExpr_error (hc : e.Complete) (h : ofExpr names key e = .error err) :
    (∃ cause, err = .unsupported cause) ∨
      ∃ fields name, e = .record fields ∧ err = .duplicateMember name ∧
        RepeatsFirst fields name := by
  unfold ofExpr at h
  split at h
  next fields =>
    have hf : ∀ f ∈ fields, f.2.Complete := by
      intro f hf
      exact (Expr.complete_iff.1 hc).2 f.2 (List.mem_map_of_mem hf)
    rcases bind_eq_error_iff.1 h with h | ⟨r, -, h⟩
    · rcases columns_error hf h with hu | ⟨name, rfl, first, e, rest, rfl, hr, hn⟩
      · exact .inl hu
      · obtain ⟨hnd, hcols⟩ := columns_isOk_iff.1 hr
        exact .inr ⟨_, name, rfl, rfl, first, e, rest, rfl, hnd, fun f hf => (hcols f hf).2, hn⟩
    · cases h
  next =>
    rcases bind_eq_error_iff.1 h with h | ⟨r, -, h⟩
    · exact .inl (onlyUnsupported_column names key [] none hc err h)
    · cases h

theorem ofExpr_of_repeatsFirst (h : RepeatsFirst fields name) (names : FieldNames)
    (key : Option String) :
    ofExpr names key (.record fields) = .error (.duplicateMember name) := by
  obtain ⟨first, e, rest, rfl, hnd, hcols, hn⟩ := h
  obtain ⟨r, hr⟩ : ∃ r, columns names key [] [] first = .ok r :=
    columns_isOk_iff.2 ⟨hnd, fun f hf => ⟨List.not_mem_nil, hcols f hf⟩⟩
  exact bind_eq_error_iff.2 (.inl (columns_of_repeated hr hn e rest))

end GroupedProjection

namespace Draft

theorem onlyUnsupported_onDocuments (names : FieldNames) (d : Draft) (hs : s.Complete) :
    OnlyUnsupported (d.onDocuments names s) := by
  obtain ⟨ha, he⟩ := hs
  cases s with
  | filter e | query e =>
    cases e with
    | none => cases ha
    | some e =>
      exact .bind (.ok e) fun e => (Expr.onlyUnsupported_criteria names e).bind fun c => .ok _
  | queryString text =>
    cases text with
    | none => cases ha
    | some text => exact .ok _
  | orderBy e =>
    cases e with
    | none => cases ha
    | some e =>
      exact .bind (.ok e) fun e => (onlyUnsupported_fieldOf names .orderBy e).bind fun f => .ok _
  | orderByScore | skip | take => exact .ok _
  | groupBy e =>
    cases e with
    | none => cases ha
    | some e =>
      rw [onDocuments]
      split
      · exact .unsupported _
      · exact .bind (.ok e) fun e => (onlyUnsupported_groupKey names e).bind fun key => .ok _
  | select e =>
    cases e with
    | none => cases ha
    | some e =>
      exact .bind (.ok e) fun e => (Projection.onlyUnsupported_ofExpr names e).bind fun p => .ok _
  | execute terminal e =>
    exact .bind (.mapM (Expr.onlyUnsupported_criteria names) _) fun cs => .ok _

theorem onlyUnsupported_onSelected (d : Draft) (p : Projection) (s : Step) :
    OnlyUnsupported (d.onSelected p s) := by
  unfold onSelected
  split
  · exact .ok _
  · exact .ok _
  · exact .ok _
  · exact .unsupported _
  · exact .unsupported _

theorem onlyUnsupported_onGrouped (d : Draft) (g : GroupedProjection) (limit : Option Nat)
    (s : Step) : OnlyUnsupported (d.onGrouped g limit s) := by
  unfold onGrouped
  split
  · exact .ok _
  · exact .unsupported _
  · exact .unsupported _
  · exact .unsupported _

theorem onGrouping_error (hs : s.Complete) (h : onGrouping names d key s = .error err) :
    (∃ cause, err = .unsupported cause) ∨
      ∃ fields name, s = .select (some (.record fields)) ∧ err = .duplicateMember name ∧
        GroupedProjection.RepeatsFirst fields name := by
  obtain ⟨ha, he⟩ := hs
  cases s with
  | select e =>
    cases e with
    | none => cases ha
    | some e =>
      rcases bind_eq_error_iff.1 h with h | ⟨e', he', h⟩
      · cases h
      cases he'
      rcases bind_eq_error_iff.1 h with h | ⟨p, -, h⟩
      · rcases GroupedProjection.ofExpr_error (he e rfl) h with hu | ⟨fields, name, rfl, hn, hr⟩
        · exact .inl hu
        · exact .inr ⟨fields, name, rfl, hn, hr⟩
      · cases h
  | take | groupBy | filter | query | queryString | orderBy | orderByScore | skip | execute =>
    cases h
    exact .inl ⟨_, rfl⟩

/-- An operation that has its argument is refused for what no request can express, unless it is a
record of groups that repeats a name. -/
theorem step_error (hs : s.Complete) (h : step names d s = .error err) :
    (∃ cause, err = .unsupported cause) ∨
      ∃ key fields name, d.stage = .grouping key ∧ s = .select (some (.record fields)) ∧
        err = .duplicateMember name ∧ GroupedProjection.RepeatsFirst fields name := by
  rw [step] at h
  split at h
  · exact .inl (onlyUnsupported_onDocuments names d hs err h)
  · exact .inl (onlyUnsupported_onSelected d _ s err h)
  · cases h
    exact .inl ⟨_, rfl⟩
  next key hd =>
    rcases onGrouping_error hs h with hu | ⟨fields, name, he, hn, hr⟩
    · exact .inl hu
    · exact .inr ⟨key, fields, name, hd, he, hn, hr⟩
  · exact .inl (onlyUnsupported_onGrouped d _ _ s err h)

/-- A run stops at the first operation that is refused. -/
theorem foldlM_eq_error_iff : steps.foldlM (step names) d = .error err ↔
    ∃ before s after m, steps = before ++ s :: after ∧ Runs names d before m ∧
      step names m s = .error err := by
  induction steps generalizing d with
  | nil =>
    constructor
    · rintro ⟨⟩
    · rintro ⟨before, s, after, m, h, -⟩
      cases before <;> cases h
  | cons s rest ih =>
    rw [List.foldlM_cons, bind_eq_error_iff]
    constructor
    · rintro (h | ⟨m, hm, h⟩)
      · exact ⟨[], s, rest, d, rfl, .nil, h⟩
      · obtain ⟨before, t, after, m', rfl, hr, ht⟩ := ih.1 h
        exact ⟨s :: before, t, after, m', rfl, .cons (step_eq_ok_iff.1 hm) hr, ht⟩
    · rintro ⟨before, t, after, m, h, hr, ht⟩
      cases hr with
      | nil =>
        cases h
        exact .inl ht
      | cons hn hr =>
        cases h
        exact .inr ⟨_, step_eq_ok_iff.2 hn, ih.2 ⟨_, t, after, m, rfl, hr, ht⟩⟩

theorem onlyUnsupported_finish (d : Draft) (source docType : String) :
    OnlyUnsupported (d.finish source docType) := by
  rw [finish]
  split
  · exact .ok _
  · exact .ok _
  · split <;> exact .ok _
  · exact .unsupported _
  · exact .ok _

/-- The key of groups ends a run of operations that leave documents, none of which is a page. -/
theorem exists_runs_grouping_iff :
    (∃ d key, Runs names {} steps d ∧ d.stage = .grouping key) ↔
      ∃ first k, steps = first ++ [.groupBy (some k)] ∧
        (∀ s ∈ first, s.OnDocuments ∧ s.pages = false) ∧ k.IsGroupKey := by
  constructor
  · rintro ⟨d, key, h, hd⟩
    obtain ⟨first, last, rfl, hfirst, ⟨hg, -⟩ | ⟨k, -, -, hp, hk, rfl⟩⟩ := h.splits rfl
    · exact absurd hd (hg key)
    · have hpages : ∀ s ∈ first, s.pages = false := by simpa using (Bool.or_eq_false_iff.1 hp).2
      exact ⟨first, k, rfl, fun s hs => ⟨hfirst s hs, hpages s hs⟩, hk⟩
  · rintro ⟨first, k, rfl, hfirst, hk⟩
    obtain ⟨m, hr, hm⟩ : ∃ m, Runs names {} first m ∧ m.stage = .documents :=
      runs_of_onDocuments rfl fun s hs => (hfirst s hs).1
    have hpages : first.any Step.pages = false := by simpa using fun s hs => (hfirst s hs).2
    have hp : m.isPaged = false := (hr.isPaged hm).2.trans hpages
    obtain ⟨key, hkey⟩ : ∃ key, groupKey names k = .ok key := groupKey_isOk_iff.2 hk
    exact ⟨_, key, runs_append_iff.2 ⟨m, hr, .cons (.groupBy hm hp hkey) .nil⟩, rfl⟩

end Draft

namespace Query

/-- The first fault of a query is a name that the record of its groups repeats. -/
def RepeatsFirst (q : Query) (name : String) : Prop :=
  ∃ first k fields rest,
    q.steps = first ++ .groupBy (some k) :: .select (some (.record fields)) :: rest ∧
      (∀ s ∈ first, s.OnDocuments ∧ s.pages = false) ∧ k.IsGroupKey ∧
      GroupedProjection.RepeatsFirst fields name

variable {q : Query} {names : FieldNames}

theorem plan_of_lacksFirst (h : q.LacksFirst a) : q.plan names = .error (.missingArgument a) := by
  obtain ⟨rest, hm⟩ := exists_missing_iff.2 h
  rw [plan, hm]
  rfl

theorem plan_of_complete (h : q.Complete) : q.plan names = (q.steps.foldlM (Draft.step names) {} >>=
    fun d => d.finish q.docType (names.naming.type q.docType)) := by
  rw [plan, missing_eq_nil_iff.2 h]

theorem exists_lacksFirst (h : ¬q.Complete) : ∃ a, q.LacksFirst a := by
  cases hm : q.missing with
  | nil => exact absurd (missing_eq_nil_iff.1 hm) h
  | cons a rest => exact ⟨a, exists_missing_iff.1 ⟨rest, hm⟩⟩

theorem plan_of_repeatsFirst {name : String} (hc : q.Complete) (h : q.RepeatsFirst name) :
    q.plan names = .error (.duplicateMember name) := by
  obtain ⟨first, k, fields, rest, hs, hfirst, hk, hr⟩ := h
  obtain ⟨d, key, hruns, hd⟩ : ∃ d key, Draft.Runs names {} (first ++ [.groupBy (some k)]) d ∧
      d.stage = .grouping key := Draft.exists_runs_grouping_iff.2 ⟨first, k, rfl, hfirst, hk⟩
  rw [plan_of_complete hc]
  refine bind_eq_error_iff.2 (.inl (Draft.foldlM_eq_error_iff.2
    ⟨_, .select (some (.record fields)), rest, d, by rw [hs, List.append_cons], hruns, ?_⟩))
  rw [Draft.step, hd]
  exact bind_eq_error_iff.2 (.inr ⟨_, rfl, bind_eq_error_iff.2
    (.inl (GroupedProjection.ofExpr_of_repeatsFirst hr names key))⟩)

theorem plan_error_of_complete (hc : q.Complete) (h : q.plan names = .error err) :
    (∃ cause, err = .unsupported cause) ∨
      ∃ name, err = .duplicateMember name ∧ q.RepeatsFirst name := by
  rw [plan_of_complete hc] at h
  rcases bind_eq_error_iff.1 h with h | ⟨d, -, h⟩
  · obtain ⟨before, s, after, m, hs, hr, he⟩ := Draft.foldlM_eq_error_iff.1 h
    have hcs : s.Complete := hc s (by rw [hs]; simp)
    rcases Draft.step_error hcs he with hu | ⟨key, fields, name, hm, rfl, hn, hf⟩
    · exact .inl hu
    · obtain ⟨first, k, rfl, hfirst, hk⟩ := Draft.exists_runs_grouping_iff.1 ⟨m, key, hr, hm⟩
      exact .inr ⟨name, hn, first, k, fields, after, by simpa using hs, hfirst, hk, hf⟩
  · exact .inl (Draft.onlyUnsupported_finish d _ _ err h)

/-- Absent arguments are reported before all else and for no other fault, the first one of them; a
repeated name only where nothing before it is refused; and the rest cannot be expressed. -/
theorem plan_refuses (names : FieldNames) (q : Query) :
    (¬q.Complete → ∃ a, q.plan names = .error (.missingArgument a)) ∧
      (∀ a, q.plan names = .error (.missingArgument a) ↔ q.LacksFirst a) ∧
      (∀ name, q.plan names = .error (.duplicateMember name) ↔
        q.Complete ∧ q.RepeatsFirst name) ∧
      ∀ err, q.plan names = .error err → err.isQueryError = true ∧
        ((∃ a, err = .missingArgument a) ∨ (∃ name, err = .duplicateMember name) ∨
          ∃ cause, err = .unsupported cause) := by
  -- A query that lacks an argument is refused before any of its operations is looked at.
  by_cases hc : q.Complete
  · have herr (err : Error) (h : q.plan names = .error err) := plan_error_of_complete hc h
    have hlacks (a : Argument) : ¬q.LacksFirst a := by
      intro ha
      obtain ⟨rest, hm⟩ := exists_missing_iff.2 ha
      rw [missing_eq_nil_iff.2 hc] at hm
      cases hm
    refine ⟨absurd hc, fun a => ?_, fun name => ?_, fun err h => ?_⟩
    · constructor
      · intro h
        rcases herr _ h with ⟨_, h⟩ | ⟨_, h, -⟩ <;> cases h
      · exact fun h => absurd h (hlacks a)
    · constructor
      · intro h
        rcases herr _ h with ⟨_, h⟩ | ⟨_, h, hr⟩ <;> cases h
        exact ⟨hc, hr⟩
      · exact fun h => plan_of_repeatsFirst hc h.2
    · rcases herr err h with ⟨cause, rfl⟩ | ⟨name, rfl, -⟩
      · exact ⟨rfl, .inr (.inr ⟨cause, rfl⟩)⟩
      · exact ⟨rfl, .inr (.inl ⟨name, rfl⟩)⟩
  · obtain ⟨first, hfirst⟩ := exists_lacksFirst hc
    have hplan : q.plan names = .error (.missingArgument first) := plan_of_lacksFirst hfirst
    refine ⟨fun _ => ⟨first, hplan⟩, fun a => ⟨fun h => ?_, plan_of_lacksFirst⟩,
      fun name => ⟨fun h => ?_, fun h => absurd h.1 hc⟩, fun err h => ?_⟩
    · rw [hplan] at h
      cases h
      exact hfirst
    · rw [hplan] at h
      cases h
    · rw [hplan] at h
      cases h
      exact ⟨rfl, .inl ⟨first, rfl⟩⟩

/-- An ordering that no request has, and after it an operand and a predicate that are absent. -/
def absentAfterUnsupported : Query :=
  ⟨"Robot", [.orderBy (some .groupKey) false false,
    .filter (some (.or (.field "armed") (.not (.aggregate .sum none)))), .filter none]⟩

/-- A name that stands twice, the second time over what no column has. -/
def repeatedBeforeUnsupported : Query :=
  ⟨"Robot", [.groupBy (some (.field "zone")),
    .select (some (.record [("n", .groupKey), ("n", .not .groupKey)])), .skip 1]⟩

theorem plan_refuses_first_fault :
    absentAfterUnsupported.LacksFirst (.operand .sum) ∧
      repeatedBeforeUnsupported.Complete ∧ repeatedBeforeUnsupported.RepeatsFirst "n" := by
  have hlacks : absentAfterUnsupported.plan ⟨⟨Member.name, id⟩, ""⟩ =
      .error (.missingArgument (.operand .sum)) := rfl
  have hrepeats : repeatedBeforeUnsupported.plan ⟨⟨Member.name, id⟩, ""⟩ =
      .error (.duplicateMember "n") := rfl
  constructor
  · exact ((plan_refuses _ _).2.1 _).1 hlacks
  · exact ((plan_refuses _ _).2.2.1 _).1 hrepeats

end Query

end SearchQuery
