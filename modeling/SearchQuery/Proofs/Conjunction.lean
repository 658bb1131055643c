import SearchQuery.Criteria.Combine
import SearchQuery.Proofs.Reading

/-!
Conjunction keeps the meaning of criteria and their form. A range that is merged into another one
bounds a field as the two did, since of two bounds of a kind the stricter decides.
-/

namespace SearchQuery

theorem BoundKind.looser_of_stricter {k : BoundKind} (h : k.stricter x y = true) :
    k.Looser x y := by
  cases k <;> exact Int.le_of_lt (of_decide_eq_true h)

theorem BoundKind.looser_of_not_stricter {k : BoundKind} (h : k.stricter x y = false) :
    k.Looser y x := by
  cases k <;> exact Int.not_lt.1 (of_decide_eq_false h)

namespace Bound

theorem holds_of_looser (r : Reading) (d : Document) (field : String) {a b : Bound}
    (hk : a.kind = b.kind) (ha : a.value.toDouble? = some x) (hb : b.value.toDouble? = some y)
    (hl : b.kind.Looser x y) (h : b.holds r d field = true) :
    a.holds r d field = true := by
  unfold holds Document.has at h ⊢
  cases hv : d.value? field with
  | none => rw [hv] at h; cases h
  | some v =>
    rw [hv] at h
    rw [hk]
    exact r.bound_mono ha hb hl h

/-- The stricter of two bounds stands for both. -/
theorem holds_stricter {a b : Bound} (hk : a.kind = b.kind) (ha : a.value.toDouble? = some x)
    (hb : b.value.toDouble? = some y) :
    (if b.kind.stricter x y then b else a).holds r d field =
      (a.holds r d field && b.holds r d field) := by
  cases hs : b.kind.stricter x y with
  | true =>
    have h := holds_of_looser r d field hk ha hb (BoundKind.looser_of_stricter hs)
    cases hb' : b.holds r d field <;> simp_all
  | false =>
    have hl := BoundKind.looser_of_not_stricter hs
    rw [← hk] at hl
    have h := holds_of_looser r d field hk.symm hb ha hl
    cases ha' : a.holds r d field <;> simp_all

/-- What insertion does to a range that starts with a bound: the two of one kind become the stricter
one, and other kinds are left alone. -/
theorem insert_cons {a b : Bound} (h : b.insert (a :: rest) = some merged) :
    (a.kind = b.kind ∧ ∃ x y, a.value.toDouble? = some x ∧ b.value.toDouble? = some y ∧
      merged = (if b.kind.stricter x y then b else a) :: rest) ∨
    (a.kind ≠ b.kind ∧ ∃ tail, b.insert rest = some tail ∧ merged = a :: tail) := by
  rw [insert] at h
  split at h
  next hk =>
    obtain ⟨x, hx, h⟩ := Option.bind_eq_some_iff.1 h
    obtain ⟨y, hy, h⟩ := Option.bind_eq_some_iff.1 h
    cases h
    exact .inl ⟨hk, x, y, hx, hy, rfl⟩
  next hk =>
    obtain ⟨tail, ht, rfl⟩ := Option.map_eq_some_iff.1 h
    exact .inr ⟨hk, tail, ht, rfl⟩

theorem holds_insert {b : Bound} (h : b.insert bounds = some merged) :
    merged.all (holds r d field) = (bounds.all (holds r d field) && b.holds r d field) := by
  induction bounds generalizing merged with
  | nil =>
    cases h
    simp
  | cons a rest ih =>
    rcases insert_cons h with ⟨hk, x, y, hx, hy, rfl⟩ | ⟨_, tail, ht, rfl⟩
    · rw [List.all_cons, List.all_cons, holds_stricter hk hx hy]
      exact Bool.and_right_comm ..
    · rw [List.all_cons, ih ht, List.all_cons, Bool.and_assoc]

theorem merge_cons (existing : List Bound) (b : Bound) (rest : List Bound) :
    merge existing (b :: rest) = (b.insert existing).bind fun bounds => merge bounds rest :=
  List.foldlM_cons

theorem holds_merge (h : merge existing incoming = some merged) :
    merged.all (holds r d field) =
      (existing.all (holds r d field) && incoming.all (holds r d field)) := by
  induction incoming generalizing existing with
  | nil =>
    cases h
    simp
  | cons b rest ih =>
    rw [merge_cons] at h
    obtain ⟨bounds, hb, hrest⟩ := Option.bind_eq_some_iff.1 h
    rw [ih hrest, holds_insert hb, List.all_cons, Bool.and_assoc]

/-- A range as it is built: no kind is repeated. -/
def Distinct (bounds : List Bound) : Prop :=
  (bounds.map Bound.kind).Nodup ∧ ∀ b ∈ bounds, b.value.Settled

/-- A kind that is present keeps its place, and a new one comes last. -/
theorem kinds_insert {b : Bound} (h : b.insert bounds = some merged) :
    merged.map kind =
      if b.kind ∈ bounds.map kind then bounds.map kind else bounds.map kind ++ [b.kind] := by
  induction bounds generalizing merged with
  | nil =>
    cases h
    rfl
  | cons a rest ih =>
    rcases insert_cons h with ⟨hk, x, y, _, _, rfl⟩ | ⟨hk, tail, ht, rfl⟩
    · have hkind : (if b.kind.stricter x y then b else a).kind = a.kind := by split <;> simp [hk]
      simp [hkind, hk]
    · simp only [List.map_cons, List.mem_cons, hk.symm, false_or, ih ht]
      split <;> rfl

theorem mem_insert {b : Bound} (h : b.insert bounds = some merged) (hc : c ∈ merged) :
    c ∈ bounds ∨ c = b := by
  induction bounds generalizing merged with
  | nil =>
    cases h
    exact .inr (List.mem_singleton.1 hc)
  | cons a rest ih =>
    rcases insert_cons h with ⟨_, x, y, _, _, rfl⟩ | ⟨_, tail, ht, rfl⟩
    · split at hc <;> simp only [List.mem_cons] at hc ⊢ <;> tauto
    · rcases List.mem_cons.1 hc with rfl | hc
      · exact .inl (.head _)
      · exact (ih ht hc).imp_left (.tail _)

theorem nodup_kinds_insert {b : Bound} (hn : (bounds.map kind).Nodup)
    (h : b.insert bounds = some merged) : (merged.map kind).Nodup := by
  rw [kinds_insert h]
  split
  · exact hn
  next hnew => exact List.nodup_append.2 ⟨hn, List.nodup_singleton _, by simpa using hnew⟩

theorem Distinct.insert {b : Bound} (hd : Distinct bounds) (hb : b.value.Settled)
    (h : b.insert bounds = some merged) : Distinct merged := by
  constructor
  · exact nodup_kinds_insert hd.1 h
  · intro c hc
    rcases mem_insert h hc with hc | rfl
    · exact hd.2 c hc
    · exact hb

/-- What every insertion keeps, a merge keeps. -/
theorem merge_induction {P : List Bound → Prop}
    (hi : ∀ b ∈ incoming, ∀ bounds merged, P bounds → b.insert bounds = some merged → P merged)
    (he : P existing) (h : merge existing incoming = some merged) : P merged := by
  induction incoming generalizing existing with
  | nil =>
    cases h
    exact he
  | cons b rest ih =>
    rw [merge_cons] at h
    obtain ⟨bounds, hb, hrest⟩ := Option.bind_eq_some_iff.1 h
    have hbounds := hi b (.head _) existing bounds he hb
    exact ih (fun c hc => hi c (.tail _ hc)) hbounds hrest

theorem Distinct.merge (he : Distinct existing) (hi : ∀ b ∈ incoming, b.value.Settled)
    (h : Bound.merge existing incoming = some merged) : Distinct merged := by
  apply merge_induction _ he h
  intro b hb bounds merged hbounds hinsert
  exact hbounds.insert (hi b hb) hinsert

end Bound

namespace Criteria

mutual

/-- The form that the combinators keep: each `bool` has a clause, no range repeats a kind, and all
values are settled. -/
def WellFormed : Criteria → Prop
  | term _ v => v.Settled
  | terms _ vs => ∀ v ∈ vs, v.Settled
  | range _ bounds => Bound.Distinct bounds
  | bool must should mustNot =>
    (must ≠ [] ∨ should ≠ [] ∨ mustNot ≠ []) ∧ AllWellFormed must ∧ AllWellFormed should ∧
      AllWellFormed mustNot
  | matchAll | present _ | missing _ | startsWith .. | regexp .. | queryString _ => True

def AllWellFormed : List Criteria → Prop
  | [] => True
  | c :: rest => c.WellFormed ∧ AllWellFormed rest

end

theorem allWellFormed_iff {cs : List Criteria} : AllWellFormed cs ↔ ∀ c ∈ cs, c.WellFormed := by
  induction cs with
  | nil => simp [AllWellFormed]
  | cons c rest ih => rw [AllWellFormed, ih, List.forall_mem_cons]

theorem wellFormed_bool_iff {must should mustNot : List Criteria} :
    (bool must should mustNot).WellFormed ↔ (must ≠ [] ∨ should ≠ [] ∨ mustNot ≠ []) ∧
      (∀ c ∈ must, c.WellFormed) ∧ (∀ c ∈ should, c.WellFormed) ∧ ∀ c ∈ mustNot, c.WellFormed := by
  rw [WellFormed, allWellFormed_iff, allWellFormed_iff, allWellFormed_iff]

/-- A `bool` without a clause, which a disjunction of nothing is. -/
def isEmpty : Criteria → Bool
  | .bool [] [] [] => true
  | _ => false

theorem isEmpty_iff {c : Criteria} : c.isEmpty = true ↔ c = .bool [] [] [] := by
  constructor
  · intro h
    unfold isEmpty at h
    split at h
    · rfl
    · cases h
  · rintro rfl
    rfl

/-- The criteria that the combinators do not drop. -/
def kept (cs : List Criteria) : List Criteria := cs.filter fun c => !c.isEmpty

/-- What the criteria hand on to those that a conjunction has to hold. -/
theorem forall_mem_flatMap_conjuncts {P : Criteria → Prop}
    (hp : ∀ b c : Criteria, P c → b ∈ c.conjuncts → P b) {cs : List Criteria}
    (h : ∀ c ∈ cs, P c) : ∀ b ∈ cs.flatMap conjuncts, P b := by
  intro b hb
  obtain ⟨c, hc, hb⟩ := List.mem_flatMap.1 hb
  exact hp b c (h c hc) hb

theorem wellFormed_of_mem_conjuncts {b c : Criteria} (hc : c.WellFormed) (h : b ∈ c.conjuncts) :
    b.WellFormed := by
  unfold conjuncts at h
  split at h
  · exact (wellFormed_bool_iff.1 hc).2.1 b h
  · cases h
  · exact List.mem_singleton.1 h ▸ hc

/-- What the list holds was there, was put in, or was merged from the two. -/
theorem mem_insertRange (h : c ∈ insertRange field bounds must) :
    c ∈ must ∨ c = .range field bounds ∨ ∃ existing merged, .range field existing ∈ must ∧
      Bound.merge existing bounds = some merged ∧ c = .range field merged := by
  fun_induction insertRange field bounds must with
  | case1 => exact .inr (.inl (List.mem_singleton.1 h))
  | case2 existing rest merged hm =>
    rcases List.mem_cons.1 h with rfl | hr
    · exact .inr (.inr ⟨existing, merged, .head _, hm, rfl⟩)
    · exact .inl (.tail _ hr)
  | case3 existing rest _ ih | case4 f existing rest _ ih | case5 d rest _ ih =>
    rcases List.mem_cons.1 h with rfl | hr
    · exact .inl (.head _)
    · rcases ih hr with hm | rfl | ⟨e, merged, he, hm, rfl⟩
      · exact .inl (.tail _ hm)
      · exact .inr (.inl rfl)
      · exact .inr (.inr ⟨e, merged, .tail _ he, hm, rfl⟩)

/-- What two ranges hand on to the one that they are merged into. -/
def Merges (P : Criteria → Prop) : Prop :=
  ∀ {field existing bounds merged}, P (.range field existing) → P (.range field bounds) →
    Bound.merge existing bounds = some merged → P (.range field merged)

theorem merges_wellFormed : Merges WellFormed := by
  intro field existing bounds merged he hb hm
  exact Bound.Distinct.merge he hb.2 hm

theorem forall_mem_insertConjunct {P : Criteria → Prop} (hp : Merges P) {must : List Criteria}
    (hm : ∀ b ∈ must, P b) (hc : P c) : ∀ b ∈ insertConjunct must c, P b := by
  fun_cases insertConjunct must c with
  | case1 field bounds =>
    intro b hb
    rcases mem_insertRange hb with h | rfl | ⟨existing, merged, he, hmerge, rfl⟩
    · exact hm b h
    · exact hc
    · exact hp (hm _ he) hc hmerge
  | case2 => exact List.forall_mem_append.2 ⟨hm, List.forall_mem_singleton.2 hc⟩

theorem forall_mem_foldl_insertConjunct {P : Criteria → Prop} (hp : Merges P)
    (must : List Criteria) {cs : List Criteria} (hm : ∀ b ∈ must, P b) (hc : ∀ c ∈ cs, P c) :
    ∀ b ∈ cs.foldl insertConjunct must, P b := by
  induction cs generalizing must with
  | nil => exact hm
  | cons c rest ih =>
    rw [List.forall_mem_cons] at hc
    exact ih _ (forall_mem_insertConjunct hp hm hc.1) hc.2

end Criteria

namespace Verdict

open Criteria

variable (v : Verdict r d)

theorem all_conjuncts (c : Criteria) :
    c.conjuncts.all v.accepts = (c.isEmpty || v.accepts c) := by
  fun_cases conjuncts c with
  | case1 must =>
    cases must with
    | nil => rfl
    | cons => simp [isEmpty, v.bool]
  | case2 =>
    have h : v.accepts .matchAll = true := v.atom trivial
    simp [h]
  | case3 _ hb =>
    have hc : c.isEmpty = false := Bool.eq_false_iff.2 fun h => hb [] (isEmpty_iff.1 h)
    simp [hc]

theorem all_insertRange (field : String) (bounds : List Bound) (must : List Criteria) :
    (insertRange field bounds must).all v.accepts =
      (must.all v.accepts && v.accepts (.range field bounds)) := by
  fun_induction insertRange field bounds must with
  | case1 => simp
  | case2 existing rest merged hm =>
    simp only [List.all_cons, v.accepts_range, Bound.holds_merge hm]
    exact Bool.and_right_comm ..
  | case3 existing rest _ ih => rw [List.all_cons, ih, List.all_cons, Bool.and_assoc]
  | case4 f existing rest _ ih => rw [List.all_cons, ih, List.all_cons, Bool.and_assoc]
  | case5 c rest _ ih => rw [List.all_cons, ih, List.all_cons, Bool.and_assoc]

theorem all_insertConjunct (must : List Criteria) (c : Criteria) :
    (insertConjunct must c).all v.accepts = (must.all v.accepts && v.accepts c) := by
  fun_cases insertConjunct must c with
  | case1 field bounds => exact v.all_insertRange ..
  | case2 => simp

theorem all_foldl_insertConjunct (must cs : List Criteria) :
    (cs.foldl insertConjunct must).all v.accepts = (must.all v.accepts && cs.all v.accepts) := by
  induction cs generalizing must with
  | nil => simp
  | cons c rest ih =>
    rw [List.foldl_cons, ih, v.all_insertConjunct, List.all_cons, Bool.and_assoc]

/-- A conjunction finds what each of its criteria does; a `bool` without a clause is not one of
them. -/
theorem accepts_all (cs : List Criteria) : v.accepts (all cs) = (kept cs).all v.accepts := by
  have h := v.all_foldl_insertConjunct [] (cs.flatMap conjuncts)
  have hc : (cs.flatMap conjuncts).all v.accepts = (kept cs).all v.accepts := by
    simp [kept, List.all_flatMap, v.all_conjuncts, List.all_filter]
  rw [List.all_nil, Bool.true_and, hc] at h
  rw [← h]
  rw [all]
  split
  next he =>
    rw [he]
    exact v.atom trivial
  next c he => rw [he]; simp
  next must hne _ => simp [v.bool (.inl hne)]

end Verdict

namespace Criteria

/-- A conjunction holds when each of its criteria does. -/
theorem holds_all (r : Reading) (d : Document) (cs : List Criteria) :
    (all cs).holds r d = cs.all (holds r d) := by
  have h : (all cs).holds r d = (kept cs).all (holds r d) :=
    (Verdict.lenient r d).accepts_all cs
  rw [h, kept, List.all_filter]
  congr 1
  funext c
  cases hc : c.isEmpty with
  | false => rfl
  | true =>
    rw [isEmpty_iff.1 hc]
    rfl

theorem wellFormed_all {cs : List Criteria} (h : ∀ c ∈ cs, c.WellFormed) : (all cs).WellFormed := by
  have hc := forall_mem_flatMap_conjuncts (fun _ _ => wellFormed_of_mem_conjuncts) h
  have hm := forall_mem_foldl_insertConjunct merges_wellFormed [] (by simp) hc
  rw [all]
  split
  · trivial
  next c he =>
    rw [he] at hm
    exact hm c (.head _)
  next must hne _ => exact wellFormed_bool_iff.2 ⟨.inl hne, hm, by simp, by simp⟩

end Criteria

end SearchQuery
