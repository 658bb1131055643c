import SearchQuery.Proofs.Language
import SearchQuery.Proofs.Rows

/-!
A query has a plan exactly when it is complete and in the language: each stage of a draft allows the
operations that the language lets follow, and no others.
-/

namespace SearchQuery

namespace Draft

/-- The operations that leave documents. -/
theorem next_documents_iff : (∃ d', Next names d s d' ∧ d'.stage = .documents) ↔
    d.stage = .documents ∧ s.OnDocuments := by
  constructor
  · rintro ⟨d', h, hd⟩
    cases h with
    | filter hs hc => exact ⟨hs, .filter (Expr.isPredicate_of_criteria hc)⟩
    | query hs hc => exact ⟨hs, .query (Expr.isPredicate_of_criteria hc)⟩
    | queryString hs => exact ⟨hs, .queryString⟩
    | orderBy hs => exact ⟨hs, .orderBy⟩
    | orderByScore hs => exact ⟨hs, .orderByScore⟩
    | skip => exact ⟨hd, .skip⟩
    | take => exact ⟨hd, .take⟩
    | groupBy | select | execute | executeSelected | selectGroups | takeGroups => cases hd
  · rintro ⟨hd, h⟩
    cases h with
    | filter he =>
      obtain ⟨c, hc⟩ := he.criteria names
      exact ⟨_, .filter hd hc, hd⟩
    | query he =>
      obtain ⟨c, hc⟩ := he.criteria names
      exact ⟨_, .query hd hc, hd⟩
    | queryString => exact ⟨_, .queryString hd, hd⟩
    | orderBy => exact ⟨_, .orderBy hd, hd⟩
    | orderByScore => exact ⟨_, .orderByScore hd, hd⟩
    | skip => exact ⟨_, .skip (.inl hd), hd⟩
    | take => exact ⟨_, .take (.inl hd), hd⟩

theorem runs_of_onDocuments (hd : d.stage = .documents) (hs : ∀ s ∈ steps, s.OnDocuments) :
    ∃ d', Runs names d steps d' ∧ d'.stage = .documents := by
  induction steps generalizing d with
  | nil => exact ⟨d, .nil, hd⟩
  | cons s rest ih =>
    rw [List.forall_mem_cons] at hs
    obtain ⟨m, hn, hm⟩ := next_documents_iff.2 ⟨hd, hs.1⟩
    obtain ⟨d', hr, hd'⟩ := ih hm hs.2
    exact ⟨d', .cons hn hr, hd'⟩

/-- Projected documents may be paged for as long as they are. -/
theorem runs_of_pages (hd : d.stage = .selected p) (hs : ∀ s ∈ steps, Step.pages s = true) :
    ∃ d', Runs names d steps d' ∧ d'.stage = .selected p := by
  induction steps generalizing d with
  | nil => exact ⟨d, .nil, hd⟩
  | cons s rest ih =>
    rw [List.forall_mem_cons] at hs
    have hn : ∃ m, Next names d s m ∧ m.stage = .selected p := by
      cases s with
      | skip n => exact ⟨_, .skip (.inr ⟨p, hd⟩), hd⟩
      | take n => exact ⟨_, .take (.inr ⟨p, hd⟩), hd⟩
      | _ => cases hs.1
    obtain ⟨m, hn, hm⟩ := hn
    obtain ⟨d', hr, hd'⟩ := ih hm hs.2
    exact ⟨d', .cons hn hr, hd'⟩

theorem Next.of_selected (h : Next names d s d') (hd : d.stage = .selected p) :
    s.pages = true ∧ d'.stage = .selected p ∨
      ∃ terminal, s = .execute terminal none ∧ d'.stage = .executed terminal p := by
  have hs : step names d s = .ok d' := step_eq_ok_iff.2 h
  rw [step, hd] at hs
  cases s with
  | skip | take =>
    cases hs
    exact .inl ⟨rfl, hd⟩
  | execute terminal predicate =>
    cases predicate with
    | none =>
      cases hs
      exact .inr ⟨terminal, rfl, rfl⟩
    | some => cases hs
  | filter | query | queryString | orderBy | orderByScore | groupBy | select => cases hs

theorem Next.of_grouping (h : Next names d s d') (hd : d.stage = .grouping key) :
    ∃ e p, s = .select (some e) ∧ GroupedProjection.ofExpr names key e = .ok p ∧
      d'.stage = .grouped p none := by
  have hs : step names d s = .ok d' := step_eq_ok_iff.2 h
  rw [step, hd] at hs
  cases s with
  | select projection =>
    obtain ⟨e, he, h₁⟩ := bind_eq_ok_iff.1 hs
    obtain ⟨p, hp, h₂⟩ := bind_eq_ok_iff.1 h₁
    obtain rfl := Argument.ofOption_eq_ok_iff.1 he
    cases h₂
    exact ⟨e, p, rfl, hp, rfl⟩
  | filter | query | queryString | orderBy | orderByScore | skip | take | groupBy | execute =>
    cases hs

theorem Next.of_grouped {limit : Option Nat} (h : Next names d s d')
    (hd : d.stage = .grouped g limit) : ∃ n limit, s = .take n ∧ d'.stage = .grouped g limit := by
  have hs : step names d s = .ok d' := step_eq_ok_iff.2 h
  rw [step, hd] at hs
  cases s with
  | take n =>
    cases hs
    exact ⟨n, _, rfl, rfl⟩
  | filter | query | queryString | orderBy | orderByScore | skip | groupBy | select | execute =>
    cases hs

/-- Nothing follows a terminal. -/
theorem Runs.of_executed (h : Runs names d steps d') (hd : d.stage = .executed terminal p) :
    steps = [] ∧ d'.stage = .executed terminal p := by
  cases h with
  | nil => exact ⟨rfl, hd⟩
  | @cons _ s m rest _ hn =>
    have hs : step names d s = .ok m := step_eq_ok_iff.2 hn
    rw [step, hd] at hs
    cases hs

/-- Pages and then a terminal may follow a projection of documents. -/
theorem Runs.of_selected (h : Runs names d steps d') (hd : d.stage = .selected p) :
    d'.stage.hasGroups = false ∧ ∃ cuts, (∀ s ∈ cuts, Step.pages s = true) ∧
      (steps = cuts ∨ ∃ terminal, steps = cuts ++ [.execute terminal none]) := by
  induction h with
  | nil =>
    rw [hd]
    exact ⟨rfl, [], by simp, .inl rfl⟩
  | @cons d s m rest d' hn hr ih =>
    rcases hn.of_selected hd with ⟨hs, hm⟩ | ⟨terminal, rfl, hm⟩
    · obtain ⟨hg, cuts, hc, hrest⟩ := ih hm
      refine ⟨hg, s :: cuts, List.forall_mem_cons.2 ⟨hs, hc⟩, ?_⟩
      rcases hrest with rfl | ⟨terminal, rfl⟩
      · exact .inl rfl
      · exact .inr ⟨terminal, rfl⟩
    · obtain ⟨rfl, hd'⟩ := hr.of_executed hm
      rw [hd']
      exact ⟨rfl, [], by simp, .inr ⟨terminal, rfl⟩⟩

/-- Limits of rows may follow a projection of groups. -/
theorem Runs.of_grouped {limit : Option Nat} (h : Runs names d steps d')
    (hd : d.stage = .grouped g limit) :
    (∃ limit, d'.stage = .grouped g limit) ∧ ∃ takes : List Nat, steps = takes.map .take := by
  induction h generalizing limit with
  | nil => exact ⟨⟨limit, hd⟩, [], rfl⟩
  | cons hn _ ih =>
    obtain ⟨n, _, rfl, hm⟩ := hn.of_grouped hd
    obtain ⟨hg, takes, rfl⟩ := ih hm
    exact ⟨hg, n :: takes, rfl⟩

/-- A run splits into the operations that leave documents and an ending, unless it stops at the key
of groups. -/
theorem Runs.splits (h : Runs names d steps d') (hd : d.stage = .documents) :
    ∃ first last, steps = first ++ last ∧ (∀ s ∈ first, s.OnDocuments) ∧
      ((∀ key, d'.stage ≠ .grouping key) ∧ Step.Ending (d.isPaged || first.any Step.pages) last ∨
        ∃ k key, d'.stage = .grouping key ∧ (d.isPaged || first.any Step.pages) = false ∧
          k.IsGroupKey ∧ last = [.groupBy (some k)]) := by
  -- The first operation that leaves no documents begins the ending. The induction carries along
  -- whether a page was taken before it, since only that decides whether groups may follow.
  induction h with
  | nil =>
    refine ⟨[], [], rfl, by simp, .inl ⟨?_, .documents⟩⟩
    rw [hd]
    simp
  | @cons d s m rest d' hn hr ih =>
    by_cases hm : m.stage = .documents
    · obtain ⟨first, last, rfl, hfirst, hlast⟩ := ih hm
      have hs := next_documents_iff.1 ⟨m, hn, hm⟩
      rw [(hn.isPaged hm).2, Bool.or_assoc] at hlast
      exact ⟨s :: first, last, rfl, List.forall_mem_cons.2 ⟨hs.2, hfirst⟩, hlast⟩
    · refine ⟨[], s :: rest, rfl, by simp, ?_⟩
      rw [List.any_nil, Bool.or_false]
      cases hn with
      | filter | query | queryString | orderBy | orderByScore => exact absurd hd hm
      | skip | take => exact absurd hd hm
      | groupBy hs hp hk =>
        have hkey := groupKey_isOk_iff.1 ⟨_, hk⟩
        cases hr with
        | nil => exact .inr ⟨_, _, rfl, hp, hkey, rfl⟩
        | cons hn hr =>
          obtain ⟨e, p, rfl, he, hp'⟩ := hn.of_grouping rfl
          obtain ⟨⟨limit, hg⟩, takes, rfl⟩ := hr.of_grouped hp'
          refine .inl ⟨?_, ?_⟩
          · rw [hg]
            simp
          · rw [hp]
            exact .groups hkey (GroupedProjection.isOk_iff.1 ⟨p, he⟩) takes
      | select hs hp =>
        have he := Projection.isOk_iff.1 ⟨_, hp⟩
        obtain ⟨hg, cuts, hc, hrest⟩ := hr.of_selected rfl
        refine .inl ⟨?_, ?_⟩
        · intro key hk
          rw [hk] at hg
          cases hg
        · rcases hrest with rfl | ⟨terminal, rfl⟩
          · exact .select he hc
          · exact .executeSelected he hc
      | execute hs hc =>
        obtain ⟨rfl, hd'⟩ := hr.of_executed rfl
        refine .inl ⟨?_, ?_⟩
        · rw [hd']
          simp
        · exact .execute (Expr.mapM_criteria_isOk_iff.1 ⟨_, hc⟩)
      | executeSelected hs | selectGroups hs | takeGroups hs =>
        rw [hd] at hs
        cases hs

/-- Each ending is run to its end. -/
theorem runs_of_ending (h : Step.Ending d.isPaged steps) (hd : d.stage = .documents) :
    ∃ d', Runs names d steps d' ∧ ∀ key, d'.stage ≠ .grouping key := by
  -- Cases on an ending need its index to be a variable.
  generalize hpaged : d.isPaged = paged at h
  cases h with
  | documents => exact ⟨d, .nil, by simp [hd]⟩
  | execute he =>
    obtain ⟨cs, hc⟩ := Expr.mapM_criteria_isOk_iff.2 he
    exact ⟨_, .cons (.execute hd hc) .nil, by simp⟩
  | select he hc =>
    obtain ⟨p, hp⟩ := Projection.isOk_iff.2 he
    obtain ⟨d', hr, hd'⟩ := runs_of_pages (d := { d with stage := .selected p }) rfl hc
    exact ⟨d', .cons (.select hd hp) hr, by simp [hd']⟩
  | @executeSelected cuts _ e terminal he hc =>
    obtain ⟨p, hp⟩ := Projection.isOk_iff.2 he
    obtain ⟨m, hr, hm⟩ := runs_of_pages (d := { d with stage := .selected p }) rfl hc
    have hlast : Runs names m [.execute terminal none]
        { m with stage := .executed terminal p } := .cons (.executeSelected hm) .nil
    exact ⟨_, .cons (.select hd hp) (runs_append_iff.2 ⟨m, hr, hlast⟩), by simp⟩
  | groups hk he takes =>
    obtain ⟨key, hkey⟩ := groupKey_isOk_iff.2 hk
    obtain ⟨g, hg⟩ := GroupedProjection.isOk_iff.2 he
    exact ⟨_, runs_grouped_iff.2 ⟨hd, hpaged, key, g, hkey, hg, rfl⟩, by simp⟩

theorem finish_isOk_iff :
    (∃ p, finish d source docType = .ok p) ↔ ∀ key, d.stage ≠ .grouping key := by
  rw [finish]
  cases d.stage with
  | documents | selected | grouping | grouped => simp
  | executed terminal p => cases terminal <;> simp

end Draft

namespace Query

/-- The queries that have a plan are those of the language, under every naming. -/
theorem plan_isOk_iff (names : FieldNames) (q : Query) :
    (∃ p, q.plan names = .ok p) ↔ q.Complete ∧ q.Supported := by
  constructor
  · rintro ⟨p, h⟩
    obtain ⟨hm, d, hruns, hfinish⟩ := plan_eq_ok_iff.1 h
    obtain ⟨first, last, hs, hfirst, hlast⟩ := hruns.splits rfl
    refine ⟨missing_eq_nil_iff.1 hm, first, last, hs, hfirst, ?_⟩
    rcases hlast with ⟨-, hlast⟩ | ⟨k, key, hd, -⟩
    · exact hlast
    · exact absurd hd (Draft.finish_isOk_iff.1 ⟨p, hfinish⟩ key)
  · rintro ⟨hc, first, last, hs, hfirst, hlast⟩
    obtain ⟨m, hr, hm⟩ : ∃ m, Draft.Runs names {} first m ∧ m.stage = .documents :=
      Draft.runs_of_onDocuments rfl hfirst
    have hpaged : m.isPaged = first.any Step.pages := (hr.isPaged hm).2
    obtain ⟨d, hd, hstage⟩ := Draft.runs_of_ending (hpaged ▸ hlast) hm
    obtain ⟨p, hp⟩ := Draft.finish_isOk_iff.2 hstage
    have hruns := Draft.runs_append_iff.2 ⟨m, hr, hd⟩
    exact ⟨p, plan_eq_ok_iff.2 ⟨missing_eq_nil_iff.2 hc, d, hs ▸ hruns, hp⟩⟩

end Query

end SearchQuery
