import SearchQuery.Plan
import SearchQuery.Proofs.Predicate

/-!
What each operation of an accepted chain makes of a draft, and what whole chains make of it.
-/

namespace SearchQuery

theorem Argument.ofOption_eq_ok_iff {a : Argument} {o : Option α} :
    a.ofOption o = .ok v ↔ o = some v := by
  cases o <;> simp [ofOption]

theorem FieldNames.fieldOf_eq_ok_iff {names : FieldNames} {place : MemberPlace} {e : Expr}
    {name : String} :
    names.fieldOf place e = .ok name ↔ ∃ m, e = .member m ∧ names.field m = name := by
  cases e <;> simp [fieldOf]

namespace Draft

/-- One accepted operation: the stage that allows it, and the draft it leaves. -/
inductive Next (names : FieldNames) (d : Draft) : Step → Draft → Prop
  | filter (hd : d.stage = .documents) (hc : e.criteria names = .ok c) :
    Next names d (.filter (some e)) { d with filters := d.filters ++ [c] }
  | query (hd : d.stage = .documents) (hc : e.criteria names = .ok c) :
    Next names d (.query (some e)) { d with queries := d.queries ++ [c] }
  | queryString (hd : d.stage = .documents) :
    Next names d (.queryString (some text)) { d with queries := d.queries ++ [.queryString text] }
  | orderBy (hd : d.stage = .documents) :
    Next names d (.orderBy (some (.member m)) descending secondary)
      (d.order ⟨names.field m, descending⟩ secondary)
  | orderByScore (hd : d.stage = .documents) :
    Next names d (.orderByScore descending secondary) (d.order (.relevance descending) secondary)
  | skip (hd : d.stage = .documents ∨ ∃ p, d.stage = .selected p) :
    Next names d (.skip n) (d.skip n)
  | take (hd : d.stage = .documents ∨ ∃ p, d.stage = .selected p) :
    Next names d (.take n) (d.take n)
  | groupBy (hd : d.stage = .documents) (hp : d.isPaged = false)
    (hk : groupKey names e = .ok key) :
    Next names d (.groupBy (some e)) { d with stage := .grouping key }
  | select (hd : d.stage = .documents) (hp : Projection.ofExpr names e = .ok p) :
    Next names d (.select (some e)) { d with stage := .selected p }
  | execute (hd : d.stage = .documents)
    (hc : predicate.toList.mapM (Expr.criteria names) = .ok cs) :
    Next names d (.execute terminal predicate)
      { d with filters := d.filters ++ cs, stage := .executed terminal .source }
  | executeSelected (hd : d.stage = .selected p) :
    Next names d (.execute terminal none) { d with stage := .executed terminal p }
  | selectGroups (hd : d.stage = .grouping key)
    (hp : GroupedProjection.ofExpr names key e = .ok p) :
    Next names d (.select (some e)) { d with stage := .grouped p none }
  | takeGroups {limit : Option Nat} (hd : d.stage = .grouped p limit) :
    Next names d (.take n) { d with stage := .grouped p (some (tighten limit n)) }

theorem next_of_onDocuments (hd : d.stage = .documents) (h : d.onDocuments names s = .ok d') :
    Next names d s d' := by
  cases s with
  | filter predicate =>
    obtain ⟨e, he, h₁⟩ := bind_eq_ok_iff.1 h
    obtain ⟨c, hc, h₂⟩ := bind_eq_ok_iff.1 h₁
    obtain rfl := Argument.ofOption_eq_ok_iff.1 he
    cases h₂
    exact .filter hd hc
  | query predicate =>
    obtain ⟨e, he, h₁⟩ := bind_eq_ok_iff.1 h
    obtain ⟨c, hc, h₂⟩ := bind_eq_ok_iff.1 h₁
    obtain rfl := Argument.ofOption_eq_ok_iff.1 he
    cases h₂
    exact .query hd hc
  | queryString text =>
    obtain ⟨t, ht, h₁⟩ := bind_eq_ok_iff.1 h
    obtain rfl := Argument.ofOption_eq_ok_iff.1 ht
    cases h₁
    exact .queryString hd
  | orderBy key descending secondary =>
    obtain ⟨e, he, h₁⟩ := bind_eq_ok_iff.1 h
    obtain ⟨field, hf, h₂⟩ := bind_eq_ok_iff.1 h₁
    obtain rfl := Argument.ofOption_eq_ok_iff.1 he
    obtain ⟨m, rfl, rfl⟩ := FieldNames.fieldOf_eq_ok_iff.1 hf
    cases h₂
    exact .orderBy hd
  | orderByScore descending secondary =>
    cases h
    exact .orderByScore hd
  | skip n =>
    cases h
    exact .skip (.inl hd)
  | take n =>
    cases h
    exact .take (.inl hd)
  | groupBy key =>
    rw [onDocuments] at h
    split at h
    · cases h
    next hp =>
      obtain ⟨e, he, h₁⟩ := bind_eq_ok_iff.1 h
      obtain ⟨k, hk, h₂⟩ := bind_eq_ok_iff.1 h₁
      obtain rfl := Argument.ofOption_eq_ok_iff.1 he
      cases h₂
      exact .groupBy hd (Bool.eq_false_iff.2 hp) hk
  | select projection =>
    obtain ⟨e, he, h₁⟩ := bind_eq_ok_iff.1 h
    obtain ⟨p, hp, h₂⟩ := bind_eq_ok_iff.1 h₁
    obtain rfl := Argument.ofOption_eq_ok_iff.1 he
    cases h₂
    exact .select hd hp
  | execute terminal predicate =>
    obtain ⟨cs, hc, h₁⟩ := bind_eq_ok_iff.1 h
    cases h₁
    exact .execute hd hc

theorem next_of_onSelected (hd : d.stage = .selected p) (h : d.onSelected p s = .ok d') :
    Next names d s d' := by
  cases s with
  | skip n =>
    cases h
    exact .skip (.inr ⟨p, hd⟩)
  | take n =>
    cases h
    exact .take (.inr ⟨p, hd⟩)
  | execute terminal predicate =>
    cases predicate with
    | none =>
      cases h
      exact .executeSelected hd
    | some e => cases h
  | filter | query | queryString | orderBy | orderByScore | groupBy | select => cases h

theorem next_of_onGrouping (hd : d.stage = .grouping key)
    (h : d.onGrouping names key s = .ok d') : Next names d s d' := by
  cases s with
  | select projection =>
    obtain ⟨e, he, h₁⟩ := bind_eq_ok_iff.1 h
    obtain ⟨p, hp, h₂⟩ := bind_eq_ok_iff.1 h₁
    obtain rfl := Argument.ofOption_eq_ok_iff.1 he
    cases h₂
    exact .selectGroups hd hp
  | filter | query | queryString | orderBy | orderByScore | skip | take | groupBy
  | execute => cases h

theorem next_of_onGrouped {limit : Option Nat} (hd : d.stage = .grouped p limit)
    (h : d.onGrouped p limit s = .ok d') : Next names d s d' := by
  cases s with
  | take n =>
    cases h
    exact .takeGroups hd
  | filter | query | queryString | orderBy | orderByScore | skip | groupBy | select | execute =>
    cases h

/-- An operation is accepted exactly when it is one of those that may come next. -/
theorem step_eq_ok_iff : d.step names s = .ok d' ↔ Next names d s d' := by
  constructor
  · intro h
    rw [step] at h
    split at h
    next hd => exact next_of_onDocuments hd h
    next hd => exact next_of_onSelected hd h
    · cases h
    next hd => exact next_of_onGrouping hd h
    next hd => exact next_of_onGrouped hd h
  · intro h
    cases h with
    | filter hd hc | query hd hc =>
      simp only [step, hd, onDocuments, Argument.ofOption, bind, Except.bind, hc, pure, Except.pure]
    | queryString hd =>
      simp only [step, hd, onDocuments, Argument.ofOption, bind, Except.bind, pure, Except.pure]
    | orderBy hd | orderByScore hd | executeSelected hd | takeGroups hd =>
      rw [step, hd]
      rfl
    | skip hd | take hd =>
      rcases hd with hd | ⟨p, hd⟩
      · simp only [step, hd, onDocuments, pure, Except.pure]
      · simp only [step, hd, onSelected]
    | groupBy hd hp hk =>
      simp [step, hd, onDocuments, Argument.ofOption, bind, Except.bind, hp, hk, pure, Except.pure]
    | select hd hp =>
      simp only [step, hd, onDocuments, Argument.ofOption, bind, Except.bind, hp, pure, Except.pure]
    | execute hd hc =>
      simp only [step, hd, onDocuments, bind, Except.bind, hc, pure, Except.pure]
    | selectGroups hd hp =>
      simp only [step, hd, onGrouping, Argument.ofOption, bind, Except.bind, hp, pure, Except.pure]

/-- A chain of accepted operations. -/
inductive Runs (names : FieldNames) : Draft → List Step → Draft → Prop
  | nil : Runs names d [] d
  | cons (hs : Next names d s m) (hr : Runs names m rest d') : Runs names d (s :: rest) d'

theorem foldlM_eq_ok_iff : steps.foldlM (step names) d = .ok d' ↔ Runs names d steps d' := by
  induction steps generalizing d with
  | nil =>
    constructor
    · intro h
      cases h
      exact .nil
    · rintro ⟨⟩
      rfl
  | cons s rest ih =>
    rw [List.foldlM_cons, bind_eq_ok_iff]
    constructor
    · rintro ⟨m, hs, hr⟩
      exact .cons (step_eq_ok_iff.1 hs) (ih.1 hr)
    · intro h
      cases h with
      | cons hs hr => exact ⟨_, step_eq_ok_iff.2 hs, ih.2 hr⟩

theorem runs_append_iff :
    Runs names d (first ++ rest) d' ↔ ∃ m, Runs names d first m ∧ Runs names m rest d' := by
  simp only [← foldlM_eq_ok_iff, List.foldlM_append, bind_eq_ok_iff]

/-- What each operation keeps, a chain keeps. -/
theorem Runs.keeps {P : Draft → Prop} (hP : ∀ {d s d'}, Next names d s d' → P d → P d')
    (h : Runs names d steps d') (hd : P d) : P d' := by
  induction h with
  | nil => exact hd
  | cons hn _ ih => exact ih (hP hn hd)

end Draft

/-- A plan is that of the draft which the whole chain leaves. -/
theorem Query.plan_eq_ok_iff {q : Query} {names : FieldNames} : q.plan names = .ok p ↔
    q.missing = [] ∧ ∃ d, Draft.Runs names {} q.steps d ∧
      d.finish q.docType (names.naming.type q.docType) = .ok p := by
  rw [plan]
  cases hm : q.missing with
  | nil => simp only [bind_eq_ok_iff, Draft.foldlM_eq_ok_iff, true_and]
  | cons a rest => simp [throw, throwThe, MonadExceptOf.throw]

end SearchQuery
