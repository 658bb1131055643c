import SearchQuery.Proofs.NormalForm

/-!
Disjunctions inside other combinators. A disjunction of nothing is a `bool` without a clause, which
conjunctions and disjunctions drop: among other criteria of a disjunction it is not missed, but a
conjunction then asks for less than it should.
-/

namespace SearchQuery

namespace Criteria

/-- What the combinators build from atoms, of lists of any length. -/
inductive Built : Criteria → Prop
  | atom (ha : c.IsAtom) (hs : c.Settled) : Built c
  | all (h : ∀ c ∈ cs, Built c) : Built (all cs)
  | any (h : ∀ c ∈ cs, Built c) : Built (any cs)
  | negate (h : Built c) : Built c.negate

/-- The form of what is built: a disjunction has no criteria that a disjunction would splice. -/
inductive Tidy : Criteria → Prop
  | atom (ha : c.IsAtom) (hs : c.Settled) : Tidy c
  | bool (hm : ∀ c ∈ must, Tidy c) (hs : ∀ c ∈ should, Tidy c) (hn : ∀ c ∈ mustNot, Tidy c)
    (hf : must = [] → mustNot = [] → ∀ c ∈ should, c.IsDisjunct) : Tidy (.bool must should mustNot)

theorem Tidy.settled {c : Criteria} (h : c.Tidy) : c.Settled := by
  induction h with
  | atom _ hs => exact hs
  | bool _ _ _ _ ihm ihs ihn => exact settled_bool_iff.2 ⟨ihm, ihs, ihn⟩

theorem merges_settled : Merges Settled := by
  intro field existing bounds merged he hb hm
  apply Bound.merge_induction (P := fun bounds => ∀ b ∈ bounds, b.value.Settled) _ he hm
  intro b hmem before after hbefore hinsert c hc
  rcases Bound.mem_insert hinsert hc with h | rfl
  · exact hbefore c h
  · exact hb c hmem

theorem merges_tidy : Merges Tidy := by
  intro field existing bounds merged he hb hm
  exact .atom trivial (merges_settled he.settled hb.settled hm)

theorem fuses_tidy : Fuses Tidy := by
  intro b c field existing values hb hc hbe hce
  exact .atom trivial (fuses_settled hb.settled hc.settled hbe hce)

theorem Tidy.of_mem_conjuncts {b c : Criteria} (h : c.Tidy) (hb : b ∈ c.conjuncts) : b.Tidy := by
  unfold conjuncts at hb
  split at hb
  · cases h with
    | bool hm => exact hm b hb
    | atom ha => cases ha
  · cases hb
  · rwa [List.mem_singleton.1 hb]

theorem Tidy.of_mem_disjuncts {b c : Criteria} (h : c.Tidy) (hb : b ∈ c.disjuncts) :
    b.Tidy ∧ b.IsDisjunct := by
  unfold disjuncts at hb
  split at hb
  · cases h with
    | bool _ hs _ hf => exact ⟨hs b hb, hf rfl rfl b hb⟩
    | atom ha => cases ha
  next hc =>
    rw [List.mem_singleton.1 hb]
    exact ⟨h, hc⟩

theorem tidy_all {cs : List Criteria} (h : ∀ c ∈ cs, c.Tidy) : (all cs).Tidy := by
  have hparts := forall_mem_flatMap_conjuncts (fun _ _ => Tidy.of_mem_conjuncts) h
  have hmust := forall_mem_foldl_insertConjunct merges_tidy [] (by simp) hparts
  rw [all]
  split
  · exact .atom trivial trivial
  next c he =>
    rw [he] at hmust
    exact hmust c (.head _)
  · exact .bool hmust (by simp) (by simp) (by simp)

theorem tidy_disjuncts {cs : List Criteria} (h : ∀ c ∈ cs, c.Tidy) :
    ∀ b ∈ (cs.flatMap disjuncts).foldl insertDisjunct [], b.Tidy ∧ b.IsDisjunct := by
  have hfuses : Fuses fun b => b.Tidy ∧ b.IsDisjunct := by
    intro b c field existing values hb hc hbe hce
    exact ⟨fuses_tidy hb.1 hc.1 hbe hce, fuses_isDisjunct hb.2 hc.2 hbe hce⟩
  apply forall_mem_foldl_insertDisjunct hfuses [] (by simp)
  intro b hb
  obtain ⟨c, hc, hb⟩ := List.mem_flatMap.1 hb
  exact (h c hc).of_mem_disjuncts hb

theorem tidy_any {cs : List Criteria} (h : ∀ c ∈ cs, c.Tidy) : (any cs).Tidy := by
  have hshould := tidy_disjuncts h
  rw [any]
  split
  next c he =>
    rw [he] at hshould
    exact (hshould c (.head _)).1
  · refine .bool (by simp) (fun b hb => (hshould b hb).1) (by simp) ?_
    intro _ _ b hb
    exact (hshould b hb).2

theorem tidy_negate {c : Criteria} (h : c.Tidy) : c.negate.Tidy := by
  unfold negate
  split
  · exact .atom trivial trivial
  · exact .atom trivial trivial
  next c =>
    cases h with
    | bool _ _ hn => exact hn c (.head _)
    | atom ha => cases ha
  · exact .bool (by simp) (by simp) (by simpa using h) (by simp)

theorem Built.tidy {c : Criteria} (h : c.Built) : c.Tidy := by
  induction h with
  | atom ha hs => exact .atom ha hs
  | all _ ih => exact tidy_all ih
  | any _ ih => exact tidy_any ih
  | negate _ ih => exact tidy_negate ih

/-- Only a disjunction of nothing is without a clause. -/
theorem isEmpty_any {cs : List Criteria} (h : ∀ c ∈ cs, c.Tidy) :
    (any cs).isEmpty = true ↔ kept cs = [] := by
  constructor
  · intro he
    by_contra hne
    have hshould := tidy_disjuncts h
    have hsome := foldl_disjuncts_ne_nil hne
    rw [isEmpty_iff, any] at he
    split at he
    next c hc =>
      rw [hc] at hshould
      exact (hshould c (.head _)).2 [] he
    · injection he with _ hnil _
      exact hsome hnil
  · intro he
    rw [any_of_kept_eq_nil he]
    rfl

theorem kept_append (cs ds : List Criteria) : kept (cs ++ ds) = kept cs ++ kept ds :=
  List.filter_append ..

/-- A disjunction of nothing leaves nothing to ask for; any other one is asked for as a whole. -/
theorem kept_any_cons {cs : List Criteria} (h : ∀ c ∈ cs, c.Tidy) (ds : List Criteria) :
    kept (any cs :: ds) = if kept cs = [] then kept ds else any cs :: kept ds := by
  by_cases hne : kept cs = []
  · have he := (isEmpty_any h).2 hne
    rw [if_pos hne, kept, List.filter_cons_of_neg (by simp [he]), ← kept]
  · have he : (any cs).isEmpty = false := Bool.eq_false_iff.2 (mt (isEmpty_any h).1 hne)
    rw [if_neg hne, kept, List.filter_cons_of_pos (by simp [he]), ← kept]

theorem kept_any_cons_eq_nil_iff {cs : List Criteria} (h : ∀ c ∈ cs, c.Tidy)
    (ds : List Criteria) : kept (any cs :: ds) = [] ↔ kept (cs ++ ds) = [] := by
  rw [kept_any_cons h, kept_append, List.append_eq_nil_iff]
  by_cases hne : kept cs = [] <;> simp [hne]

theorem mem_kept_iff {c : Criteria} {cs : List Criteria} :
    c ∈ kept cs ↔ c ∈ cs ∧ c ≠ any [] := by
  rw [kept, List.mem_filter, Bool.not_eq_true', Bool.eq_false_iff, Ne, isEmpty_iff]
  rfl

mutual

/-- Whether criteria hold of a document if a `bool` without a clause holds of none. -/
def holdsStrictly (r : Reading) (d : Document) : Criteria → Bool
  | bool [] [] [] => false
  | bool must should mustNot =>
    allHoldStrictly r d must && (should.isEmpty || anyHoldsStrictly r d should) &&
      !anyHoldsStrictly r d mustNot
  | c => c.holds r d

def allHoldStrictly (r : Reading) (d : Document) : List Criteria → Bool
  | [] => true
  | c :: rest => c.holdsStrictly r d && allHoldStrictly r d rest

def anyHoldsStrictly (r : Reading) (d : Document) : List Criteria → Bool
  | [] => false
  | c :: rest => c.holdsStrictly r d || anyHoldsStrictly r d rest

end

theorem allHoldStrictly_eq (r : Reading) (d : Document) (cs : List Criteria) :
    allHoldStrictly r d cs = cs.all (holdsStrictly r d) := by
  induction cs with
  | nil => rfl
  | cons c rest ih => rw [allHoldStrictly, ih, List.all_cons]

theorem anyHoldsStrictly_eq (r : Reading) (d : Document) (cs : List Criteria) :
    anyHoldsStrictly r d cs = cs.any (holdsStrictly r d) := by
  induction cs with
  | nil => rfl
  | cons c rest ih => rw [anyHoldsStrictly, ih, List.any_cons]

end Criteria

open Criteria

namespace Verdict

/-- The engine that finds no document by a `bool` without a clause. -/
def strict (r : Reading) (d : Document) : Verdict r d where
  accepts := holdsStrictly r d
  atom := by
    intro c hc
    cases c with
    | bool => cases hc
    | _ => rfl
  bool := by
    intro must should mustNot h
    rw [holdsStrictly, allHoldStrictly_eq, anyHoldsStrictly_eq, anyHoldsStrictly_eq]
    rintro rfl rfl rfl
    simp at h

variable (v : Verdict r d)

theorem all_kept_any_cons {cs : List Criteria} (h : ∀ c ∈ cs, c.Tidy) (ds : List Criteria) :
    (kept (any cs :: ds)).all v.accepts =
      ((decide (kept cs = []) || (kept cs).any v.accepts) && (kept ds).all v.accepts) := by
  rw [kept_any_cons h]
  by_cases hne : kept cs = []
  · simp [hne]
  · rw [if_neg hne, List.all_cons, v.accepts_any (fun c hc => (h c hc).settled) hne]
    simp [hne]

theorem any_kept_any_cons {cs : List Criteria} (h : ∀ c ∈ cs, c.Tidy) (ds : List Criteria) :
    (kept (any cs :: ds)).any v.accepts = (kept (cs ++ ds)).any v.accepts := by
  rw [kept_any_cons h, kept_append, List.any_append]
  by_cases hne : kept cs = []
  · simp [hne]
  · rw [if_neg hne, List.any_cons, v.accepts_any (fun c hc => (h c hc).settled) hne]

/-- An engine that finds nothing by a `bool` without a clause finds what is kept of a list. -/
theorem exists_mem_kept_iff (hv : v.accepts (any []) = false) {cs : List Criteria} :
    (∃ c ∈ kept cs, v.accepts c = true) ↔ ∃ c ∈ cs, v.accepts c = true := by
  constructor
  · rintro ⟨c, hc, ha⟩
    exact ⟨c, (mem_kept_iff.1 hc).1, ha⟩
  · rintro ⟨c, hc, ha⟩
    refine ⟨c, mem_kept_iff.2 ⟨hc, ?_⟩, ha⟩
    rintro rfl
    rw [hv] at ha
    cases ha

/-- What is found by a disjunction inside a conjunction and inside a disjunction. A disjunction of
nothing is dropped by both: so a conjunction asks for none of `cs` when these are nothing else, and
for less than `ds`. If the engine finds nothing by a disjunction of nothing, a disjunction inside a
disjunction finds what it should, and one inside a conjunction when it is of something and no other
disjunction of nothing is dropped. -/
theorem accepts_nested_any {cs ds : List Criteria} (hc : ∀ c ∈ cs, c.Built)
    (hd : ∀ c ∈ ds, c.Built) :
    (v.accepts (all (any cs :: ds)) ↔
      (kept cs = [] ∨ ∃ c ∈ kept cs, v.accepts c) ∧ ∀ c ∈ kept ds, v.accepts c) ∧
    (v.accepts (any (any cs :: ds)) ↔
      kept (cs ++ ds) = [] ∧ v.accepts (any []) ∨ ∃ c ∈ kept (cs ++ ds), v.accepts c) ∧
    (v.accepts (any []) = false →
      (kept cs ≠ [] → any [] ∉ ds →
        (v.accepts (all (any cs :: ds)) ↔
          (∃ c ∈ cs, v.accepts c) ∧ ∀ c ∈ ds, v.accepts c)) ∧
      (v.accepts (any (any cs :: ds)) ↔ ∃ c ∈ cs ++ ds, v.accepts c)) := by
  have hcs : ∀ c ∈ cs, c.Tidy := fun c h => (hc c h).tidy
  have hds : ∀ c ∈ ds, c.Tidy := fun c h => (hd c h).tidy
  have hsettled : ∀ c ∈ any cs :: ds, c.Settled :=
    List.forall_mem_cons.2 ⟨(tidy_any hcs).settled, fun c h => (hds c h).settled⟩
  have hall : v.accepts (all (any cs :: ds)) ↔
      (kept cs = [] ∨ ∃ c ∈ kept cs, v.accepts c) ∧ ∀ c ∈ kept ds, v.accepts c := by
    rw [v.accepts_all, v.all_kept_any_cons hcs]
    simp
  have hany : v.accepts (any (any cs :: ds)) ↔
      kept (cs ++ ds) = [] ∧ v.accepts (any []) ∨ ∃ c ∈ kept (cs ++ ds), v.accepts c := by
    by_cases hne : kept (cs ++ ds) = []
    · have hempty := any_of_kept_eq_nil ((kept_any_cons_eq_nil_iff hcs ds).2 hne)
      rw [hempty, hne]
      simp [any]
    · have hkept := mt (kept_any_cons_eq_nil_iff hcs ds).1 hne
      rw [v.accepts_any hsettled hkept, v.any_kept_any_cons hcs, List.any_eq_true]
      simp [hne]
  refine ⟨hall, hany, ?_⟩
  intro hv
  constructor
  · intro hne hnot
    have hkept : kept ds = ds := by
      apply kept_eq_self
      rintro c h rfl
      exact hnot h
    rw [hall, hkept, v.exists_mem_kept_iff hv, or_iff_right hne]
  · rw [hany, v.exists_mem_kept_iff hv, hv]
    simp

/-- A choice between nothing, a range and everything. -/
def choice : List Criteria :=
  [any [], all [.range "cost" [⟨.above, .nat 5⟩], .range "cost" [⟨.below, .nat 7⟩]], all []]

/-- What is asked for beside the choice; the second says nothing but is not dropped. -/
def beside : List Criteria := [.present "zone", negate (any [])]

theorem built_choice : ∀ c ∈ choice, c.Built := by
  have hrange (b : Bound) (hb : b.value.Settled) : (range "cost" [b]).Built :=
    .atom trivial (List.forall_mem_singleton.2 hb)
  have hboth : ∀ c ∈ [range "cost" [⟨.above, .nat 5⟩], range "cost" [⟨.below, .nat 7⟩]],
      c.Built := by
    rw [List.forall_mem_cons, List.forall_mem_singleton]
    exact ⟨hrange _ trivial, hrange _ trivial⟩
  simp only [choice, List.forall_mem_cons]
  exact ⟨.any (by simp), .all hboth, .all (by simp), by simp⟩

theorem built_beside : ∀ c ∈ beside, c.Built := by
  simp only [beside, List.forall_mem_cons]
  exact ⟨.atom trivial trivial, .negate (.any (by simp)), by simp⟩

theorem accepts_nested_any_choice : (∀ c ∈ choice, c.Built) ∧ (∀ c ∈ beside, c.Built) ∧
    ∀ r d, (strict r d).accepts (any []) = false ∧
      ((strict r d).accepts (all (any choice :: beside)) ↔
        (∃ c ∈ choice, (strict r d).accepts c) ∧ ∀ c ∈ beside, (strict r d).accepts c) ∧
      ((strict r d).accepts (any (any choice :: beside)) ↔
        ∃ c ∈ choice ++ beside, (strict r d).accepts c) := by
  refine ⟨built_choice, built_beside, ?_⟩
  intro r d
  have hkept : kept choice ≠ [] := List.cons_ne_nil _ _
  have hnot : any [] ∉ beside := by simp [beside, any, negate]
  obtain ⟨-, -, hstrict⟩ := (strict r d).accepts_nested_any built_choice built_beside
  obtain ⟨hall, hany⟩ := hstrict rfl
  exact ⟨rfl, hall hkept hnot, hany⟩

/-- A conjunction with a disjunction of nothing finds every document. -/
theorem accepts_all_any_nil : all [any []] = .matchAll ∧ ∀ r d, ∀ v : Verdict r d,
    ¬(v.accepts (all (any [] :: [])) ↔
      (∃ c ∈ ([] : List Criteria), v.accepts c) ∧ ∀ c ∈ ([] : List Criteria), v.accepts c) := by
  refine ⟨rfl, ?_⟩
  intro r d v h
  have hv : v.accepts (all [any []]) = true := v.atom trivial
  obtain ⟨⟨c, hc, -⟩, -⟩ := h.1 hv
  cases hc

end Verdict

end SearchQuery
