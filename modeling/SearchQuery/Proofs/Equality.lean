import Mathlib.Data.List.Forall2
import SearchQuery.Facet
import SearchQuery.Proofs.Disjunction

/-!
Equality of criteria is an equivalence when their values are settled, and so is the agreement of
facets on what they compute.
-/

namespace SearchQuery

section Lists

variable {R : α → α → Prop} {as bs cs : List α}

theorem forall₂_symm {P : α → Prop} (hr : ∀ a ∈ as, ∀ b, P a → P b → R a b → R b a)
    (ha : ∀ a ∈ as, P a) (hb : ∀ b ∈ bs, P b) (h : List.Forall₂ R as bs) :
    List.Forall₂ R bs as := by
  induction h with
  | nil => exact .nil
  | cons hab _ ih =>
    rw [List.forall_mem_cons] at ha hb
    have hhead := hr _ (.head _) _ ha.1 hb.1 hab
    exact .cons hhead (ih (fun a hm => hr a (.tail _ hm)) ha.2 hb.2)

theorem forall₂_trans (hr : ∀ a ∈ as, ∀ b c, R a b → R b c → R a c) (hab : List.Forall₂ R as bs)
    (hbc : List.Forall₂ R bs cs) : List.Forall₂ R as cs := by
  induction hab generalizing cs with
  | nil =>
    cases hbc
    exact .nil
  | cons h _ ih =>
    cases hbc with
    | cons hc hrest =>
      exact .cons (hr _ (.head _) _ _ h hc) (ih (fun a hm => hr a (.tail _ hm)) hrest)

end Lists

theorem Json.sameItems_iff {as bs : List Json} :
    sameItems as bs = true ↔ List.Forall₂ (fun a b => same a b = true) as bs := by
  induction as generalizing bs with
  | nil => cases bs <;> simp [sameItems]
  | cons a as ih => cases bs <;> simp [sameItems, ih]

namespace Bound

def Same (a b : Bound) : Prop := a.kind = b.kind ∧ Json.same a.value b.value = true

theorem sameAll_iff {as bs : List Bound} : sameAll as bs = true ↔ List.Forall₂ Same as bs := by
  induction as generalizing bs with
  | nil => cases bs <;> simp [sameAll]
  | cons a as ih =>
    cases bs with
    | nil => simp [sameAll]
    | cons b bs =>
      simp only [sameAll, Bool.and_eq_true, decide_eq_true_eq, List.forall₂_cons, ih, Same]
      rfl

theorem Same.refl {b : Bound} (h : b.value.Settled) : b.Same b := ⟨rfl, Json.same_refl b.value h⟩

theorem Same.symm {a b : Bound} (ha : a.value.Settled) (hb : b.value.Settled) (h : a.Same b) :
    b.Same a :=
  ⟨h.1.symm, Json.same_symm ha hb h.2⟩

theorem Same.trans {a b c : Bound} (hab : a.Same b) (hbc : b.Same c) : a.Same c :=
  ⟨hab.1.trans hbc.1, Json.same_trans hab.2 hbc.2⟩

end Bound

namespace Criteria

theorem sameAll_iff {as bs : List Criteria} :
    sameAll as bs = true ↔ List.Forall₂ (fun a b => same a b = true) as bs := by
  induction as generalizing bs with
  | nil => cases bs <;> simp [sameAll]
  | cons a as ih => cases bs <;> simp [sameAll, ih]

theorem same_term_iff {b : Criteria} :
    same (.term field v) b = true ↔ ∃ w, b = .term field w ∧ Json.same v w = true := by
  cases b with
  | term g w =>
    simp only [same, Bool.and_eq_true, decide_eq_true_eq, term.injEq]
    constructor
    · intro h
      exact ⟨w, ⟨h.1.symm, rfl⟩, h.2⟩
    · rintro ⟨u, ⟨rfl, rfl⟩, hu⟩
      exact ⟨rfl, hu⟩
  | _ => simp [same]

theorem same_terms_iff {b : Criteria} : same (.terms field vs) b = true ↔
    ∃ ws, b = .terms field ws ∧ List.Forall₂ (fun v w => Json.same v w = true) vs ws := by
  cases b with
  | terms g ws =>
    simp only [same, Bool.and_eq_true, decide_eq_true_eq, terms.injEq, Json.sameItems_iff]
    constructor
    · intro h
      exact ⟨ws, ⟨h.1.symm, rfl⟩, h.2⟩
    · rintro ⟨us, ⟨rfl, rfl⟩, hu⟩
      exact ⟨rfl, hu⟩
  | _ => simp [same]

theorem same_range_iff {b : Criteria} : same (.range field as) b = true ↔
    ∃ bs, b = .range field bs ∧ List.Forall₂ Bound.Same as bs := by
  cases b with
  | range g bs =>
    simp only [same, Bool.and_eq_true, decide_eq_true_eq, range.injEq, Bound.sameAll_iff]
    constructor
    · intro h
      exact ⟨bs, ⟨h.1.symm, rfl⟩, h.2⟩
    · rintro ⟨us, ⟨rfl, rfl⟩, hu⟩
      exact ⟨rfl, hu⟩
  | _ => simp [same]

theorem same_bool_iff {must should mustNot : List Criteria} {b : Criteria} :
    same (.bool must should mustNot) b = true ↔ ∃ must' should' mustNot',
      b = .bool must' should' mustNot' ∧
        List.Forall₂ (fun a b => same a b = true) must must' ∧
        List.Forall₂ (fun a b => same a b = true) should should' ∧
        List.Forall₂ (fun a b => same a b = true) mustNot mustNot' := by
  cases b with
  | bool must' should' mustNot' =>
    simp only [same, Bool.and_eq_true, sameAll_iff, bool.injEq]
    constructor
    · intro h
      exact ⟨must', should', mustNot', ⟨rfl, rfl, rfl⟩, h.1.1, h.1.2, h.2⟩
    · rintro ⟨_, _, _, ⟨rfl, rfl, rfl⟩, hm, hs, hn⟩
      exact ⟨⟨hm, hs⟩, hn⟩
  | _ => simp [same]

theorem same_refl (c : Criteria) (h : c.Settled) : same c c = true := by
  induction c with
  | matchAll => rfl
  | present | missing | startsWith | regexp | queryString => simp [same]
  | term field v => exact same_term_iff.2 ⟨v, rfl, Json.same_refl v h⟩
  | terms field vs =>
    exact same_terms_iff.2 ⟨vs, rfl, List.forall₂_same.2 fun v hv => Json.same_refl v (h v hv)⟩
  | range field bounds =>
    exact same_range_iff.2 ⟨bounds, rfl, List.forall₂_same.2 fun b hb => .refl (h b hb)⟩
  | bool must should mustNot ihm ihs ihn =>
    obtain ⟨hm, hs, hn⟩ := settled_bool_iff.1 h
    have hself {cs : List Criteria} (ih : ∀ c ∈ cs, same c c = true) :
        List.Forall₂ (fun a b => same a b = true) cs cs := List.forall₂_same.2 ih
    exact same_bool_iff.2 ⟨must, should, mustNot, rfl, hself fun c hc => ihm c hc (hm c hc),
      hself fun c hc => ihs c hc (hs c hc), hself fun c hc => ihn c hc (hn c hc)⟩

theorem same_symm {c b : Criteria} (hc : c.Settled) (hb : b.Settled) (h : same c b = true) :
    same b c = true := by
  induction c generalizing b with
  | matchAll | present | missing | startsWith | regexp | queryString => cases b <;> simp_all [same]
  | term field v =>
    obtain ⟨w, rfl, hw⟩ := same_term_iff.1 h
    exact same_term_iff.2 ⟨v, rfl, Json.same_symm hc hb hw⟩
  | terms field vs =>
    obtain ⟨ws, rfl, hws⟩ := same_terms_iff.1 h
    exact same_terms_iff.2 ⟨vs, rfl, forall₂_symm (fun _ _ _ => Json.same_symm) hc hb hws⟩
  | range field bounds =>
    obtain ⟨bs, rfl, hbs⟩ := same_range_iff.1 h
    exact same_range_iff.2 ⟨bounds, rfl, forall₂_symm (fun _ _ _ => Bound.Same.symm) hc hb hbs⟩
  | bool must should mustNot ihm ihs ihn =>
    obtain ⟨must', should', mustNot', rfl, hm, hs, hn⟩ := same_bool_iff.1 h
    obtain ⟨hcm, hcs, hcn⟩ := settled_bool_iff.1 hc
    obtain ⟨hbm, hbs, hbn⟩ := settled_bool_iff.1 hb
    have hms := forall₂_symm (fun a ha _ => ihm a ha) hcm hbm hm
    have hss := forall₂_symm (fun a ha _ => ihs a ha) hcs hbs hs
    have hns := forall₂_symm (fun a ha _ => ihn a ha) hcn hbn hn
    exact same_bool_iff.2 ⟨must, should, mustNot, rfl, hms, hss, hns⟩

theorem same_trans {a b c : Criteria} (hab : same a b = true) (hbc : same b c = true) :
    same a c = true := by
  induction a generalizing b c with
  | matchAll | present | missing | startsWith | regexp | queryString =>
    cases b <;> cases c <;> simp_all [same]
  | term field v =>
    obtain ⟨w, rfl, hvw⟩ := same_term_iff.1 hab
    obtain ⟨u, rfl, hwu⟩ := same_term_iff.1 hbc
    exact same_term_iff.2 ⟨u, rfl, Json.same_trans hvw hwu⟩
  | terms field vs =>
    obtain ⟨ws, rfl, hvw⟩ := same_terms_iff.1 hab
    obtain ⟨us, rfl, hwu⟩ := same_terms_iff.1 hbc
    exact same_terms_iff.2 ⟨us, rfl, forall₂_trans (fun _ _ _ _ => Json.same_trans) hvw hwu⟩
  | range field bounds =>
    obtain ⟨bs, rfl, hb⟩ := same_range_iff.1 hab
    obtain ⟨cs, rfl, hc⟩ := same_range_iff.1 hbc
    exact same_range_iff.2 ⟨cs, rfl, forall₂_trans (fun _ _ _ _ => Bound.Same.trans) hb hc⟩
  | bool must should mustNot ihm ihs ihn =>
    obtain ⟨must', should', mustNot', rfl, hm, hs, hn⟩ := same_bool_iff.1 hab
    obtain ⟨must'', should'', mustNot'', rfl, hm', hs', hn'⟩ := same_bool_iff.1 hbc
    have hms := forall₂_trans (fun a ha _ _ => ihm a ha) hm hm'
    have hss := forall₂_trans (fun a ha _ _ => ihs a ha) hs hs'
    have hns := forall₂_trans (fun a ha _ _ => ihn a ha) hn hn'
    exact same_bool_iff.2 ⟨must'', should'', mustNot'', rfl, hms, hss, hns⟩

end Criteria

namespace FacetBody

/-- What a facet computes, but for the filter that narrows it. -/
def computed : FacetBody → String × List String
  | terms fields _ _ => ("terms", fields)
  | termsStats key value _ _ => ("terms_stats", [key, value])
  | statistical fields _ => ("statistical", fields)
  | filter _ => ("filter", [])

/-- The values in the filter are settled. -/
def Settled (b : FacetBody) : Prop := ∀ c ∈ b.filter?, c.Settled

theorem agrees_iff {a b : FacetBody} :
    a.agrees b = true ↔ a.computed = b.computed ∧ (a.filter? == b.filter?) = true := by
  cases a <;> cases b <;> simp [agrees, computed, filter?, and_assoc]

theorem beq_refl {f : Option Criteria} (h : ∀ c ∈ f, c.Settled) : (f == f) = true := by
  cases f with
  | none => rfl
  | some c => exact Criteria.same_refl c (h c rfl)

theorem beq_symm {f g : Option Criteria} (hf : ∀ c ∈ f, c.Settled) (hg : ∀ c ∈ g, c.Settled)
    (h : (f == g) = true) : (g == f) = true := by
  cases f <;> cases g
  case none.none => rfl
  case some.some c b => exact Criteria.same_symm (hf c rfl) (hg b rfl) h
  all_goals cases h

theorem beq_trans {f g k : Option Criteria} (hfg : (f == g) = true) (hgk : (g == k) = true) :
    (f == k) = true := by
  cases f with
  | none =>
    cases g with
    | none => exact hgk
    | some => cases hfg
  | some c =>
    cases g with
    | none => cases hfg
    | some b =>
      cases k with
      | none => cases hgk
      | some a => exact Criteria.same_trans hfg hgk

theorem agrees_refl {b : FacetBody} (h : b.Settled) : b.agrees b = true :=
  agrees_iff.2 ⟨rfl, beq_refl h⟩

theorem agrees_symm {a b : FacetBody} (ha : a.Settled) (hb : b.Settled)
    (h : a.agrees b = true) : b.agrees a = true := by
  obtain ⟨hc, hf⟩ := agrees_iff.1 h
  exact agrees_iff.2 ⟨hc.symm, beq_symm ha hb hf⟩

theorem agrees_trans {a b c : FacetBody} (hab : a.agrees b = true) (hbc : b.agrees c = true) :
    a.agrees c = true := by
  obtain ⟨hc, hf⟩ := agrees_iff.1 hab
  obtain ⟨hc', hf'⟩ := agrees_iff.1 hbc
  exact agrees_iff.2 ⟨hc.trans hc', beq_trans hf hf'⟩

end FacetBody

end SearchQuery
