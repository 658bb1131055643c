import SearchQuery.Proofs.Conjunction

/-!
Disjunction and negation keep the meaning of criteria and their form. A `bool` without a clause
would be dropped by a disjunction although it holds of every document: well formed criteria have
none. Together with conjunction this gives what the combinators mean on criteria of any shape.
-/

namespace SearchQuery

namespace Criteria

/-- Induction on criteria with the clauses of a `bool` as lists. -/
@[induction_eliminator]
theorem induction {P : Criteria → Prop} (matchAll : P .matchAll)
    (term : ∀ field v, P (.term field v)) (terms : ∀ field vs, P (.terms field vs))
    (range : ∀ field bounds, P (.range field bounds)) (present : ∀ field, P (.present field))
    (missing : ∀ field, P (.missing field)) (startsWith : ∀ field text, P (.startsWith field text))
    (regexp : ∀ field pattern, P (.regexp field pattern))
    (queryString : ∀ text, P (.queryString text))
    (bool : ∀ must should mustNot, (∀ c ∈ must, P c) → (∀ c ∈ should, P c) → (∀ c ∈ mustNot, P c) →
      P (.bool must should mustNot)) (c : Criteria) : P c :=
  Criteria.rec (motive_1 := P) (motive_2 := fun cs => ∀ c ∈ cs, P c)
    matchAll term terms range present missing startsWith regexp queryString bool
    (by simp) (by simp_all) c

mutual

/-- All values of the criteria are settled, as values that were decoded are. -/
def Settled : Criteria → Prop
  | term _ v => v.Settled
  | terms _ vs => ∀ v ∈ vs, v.Settled
  | range _ bounds => ∀ b ∈ bounds, b.value.Settled
  | bool must should mustNot => AllSettled must ∧ AllSettled should ∧ AllSettled mustNot
  | matchAll | present _ | missing _ | startsWith .. | regexp .. | queryString _ => True

def AllSettled : List Criteria → Prop
  | [] => True
  | c :: rest => c.Settled ∧ AllSettled rest

end

theorem allSettled_iff {cs : List Criteria} : AllSettled cs ↔ ∀ c ∈ cs, c.Settled := by
  induction cs with
  | nil => simp [AllSettled]
  | cons c rest ih => rw [AllSettled, ih, List.forall_mem_cons]

theorem settled_bool_iff {must should mustNot : List Criteria} :
    (bool must should mustNot).Settled ↔
      (∀ c ∈ must, c.Settled) ∧ (∀ c ∈ should, c.Settled) ∧ ∀ c ∈ mustNot, c.Settled := by
  rw [Settled, allSettled_iff, allSettled_iff, allSettled_iff]

theorem WellFormed.settled {c : Criteria} (h : c.WellFormed) : c.Settled := by
  induction c with
  | matchAll | present | missing | startsWith | regexp | queryString => trivial
  | term | terms => exact h
  | range => exact h.2
  | bool must should mustNot ihm ihs ihn =>
    obtain ⟨-, hm, hs, hn⟩ := wellFormed_bool_iff.1 h
    rw [settled_bool_iff]
    exact ⟨fun c hc => ihm c hc (hm c hc), fun c hc => ihs c hc (hs c hc),
      fun c hc => ihn c hc (hn c hc)⟩

theorem WellFormed.ne_empty {c : Criteria} (h : c.WellFormed) : c ≠ .bool [] [] [] := by
  rintro rfl
  simp [WellFormed] at h

theorem any_equals_foldl_distinct {seen values : List Json} (hx : x.Settled)
    (hs : ∀ v ∈ seen, v.Settled) (hv : ∀ v ∈ values, v.Settled) (r : Reading) :
    (values.foldl (fun seen v => if seen.any (· == v) then seen else seen ++ [v]) seen).any
        (r.equals x) = (seen.any (r.equals x) || values.any (r.equals x)) := by
  induction values generalizing seen with
  | nil => simp
  | cons v rest ih =>
    rw [List.forall_mem_cons] at hv
    rw [List.foldl_cons, List.any_cons]
    cases hd : seen.any (· == v) with
    | true =>
      obtain ⟨u, hu, he⟩ := List.any_eq_true.1 hd
      have hc : r.equals x u = r.equals x v := r.equals_congr hx (hs u hu) hv.1 he
      rw [if_pos rfl, ih hs hv.2]
      cases hxv : r.equals x v with
      | true =>
        have hseen : seen.any (r.equals x) = true := List.any_eq_true.2 ⟨u, hu, hc.trans hxv⟩
        simp [hseen]
      | false => simp
    | false =>
      have hs' : ∀ w ∈ seen ++ [v], w.Settled :=
        List.forall_mem_append.2 ⟨hs, List.forall_mem_singleton.2 hv.1⟩
      rw [if_neg Bool.false_ne_true, ih hs' hv.2]
      simp [Bool.or_assoc]

/-- Values that are dropped as repeated were equal to one that is kept. -/
theorem any_equals_distinct (r : Reading) (hx : x.Settled) (hv : ∀ v ∈ values, v.Settled) :
    (distinct values).any (r.equals x) = values.any (r.equals x) := by
  rw [distinct]
  rw [any_equals_foldl_distinct hx (by simp) hv]
  rfl

theorem mem_foldl_distinct {seen values : List Json}
    (h : v ∈ values.foldl (fun seen v => if seen.any (· == v) then seen else seen ++ [v]) seen) :
    v ∈ seen ∨ v ∈ values := by
  induction values generalizing seen with
  | nil => exact .inl h
  | cons w rest ih =>
    rw [List.foldl_cons] at h
    rcases ih h with h | h
    · split at h
      · exact .inl h
      · rcases List.mem_append.1 h with h | h
        · exact .inl h
        · exact .inr (List.mem_singleton.1 h ▸ .head _)
    · exact .inr (.tail _ h)

theorem mem_of_mem_distinct (h : v ∈ distinct values) : v ∈ values :=
  (mem_foldl_distinct h).resolve_left (by simp)

theorem holds_of_equality? {c : Criteria} (h : c.equality? = some (field, values)) :
    c.holds r d = d.has field fun x => values.any (r.equals x) := by
  cases c <;> cases h
  · simp [holds]
  · rfl

theorem settled_of_equality? {c : Criteria} (hc : c.Settled)
    (h : c.equality? = some (field, values)) : ∀ v ∈ values, v.Settled := by
  cases c <;> cases h
  · exact List.forall_mem_singleton.2 hc
  · exact hc

theorem has_or (d : Document) (field : String) (p q : Json → Bool) :
    d.has field (fun x => p x || q x) = (d.has field p || d.has field q) := by
  rw [Document.has, Document.has, Document.has]
  cases d.value? field <;> rfl

theorem holds_fused {existing values : List Json} (he : ∀ v ∈ existing, v.Settled)
    (hv : ∀ v ∈ values, v.Settled) :
    (terms field (distinct (existing ++ values))).holds r d =
      (d.has field (fun x => existing.any (r.equals x)) ||
        d.has field fun x => values.any (r.equals x)) := by
  have hall : ∀ v ∈ existing ++ values, v.Settled := List.forall_mem_append.2 ⟨he, hv⟩
  rw [← has_or, holds]
  apply Document.has_congr
  intro x hx
  rw [any_equals_distinct r hx hall, List.any_append]

theorem mem_insertEquality {c : Criteria} {should : List Criteria}
    (h : d ∈ insertEquality c field values should) :
    d ∈ should ∨ d = c ∨ ∃ b existing, b ∈ should ∧ b.equality? = some (field, existing) ∧
      d = .terms field (distinct (existing ++ values)) := by
  fun_induction insertEquality c field values should with
  | case1 => exact .inr (.inl (List.mem_singleton.1 h))
  | case2 b rest existing heq =>
    rcases List.mem_cons.1 h with rfl | hr
    · exact .inr (.inr ⟨b, existing, .head _, heq, rfl⟩)
    · exact .inl (.tail _ hr)
  | case3 b rest f existing heq _ ih | case4 b rest heq ih =>
    rcases List.mem_cons.1 h with rfl | hr
    · exact .inl (.head _)
    · rcases ih hr with hm | rfl | ⟨e, existing, he, hq, rfl⟩
      · exact .inl (.tail _ hm)
      · exact .inr (.inl rfl)
      · exact .inr (.inr ⟨e, existing, .tail _ he, hq, rfl⟩)

/-- What two tests for equality hand on to the one that they are fused into. -/
def Fuses (P : Criteria → Prop) : Prop :=
  ∀ {b c : Criteria} {field existing values}, P b → P c → b.equality? = some (field, existing) →
    c.equality? = some (field, values) → P (.terms field (distinct (existing ++ values)))

theorem fuses_settled : Fuses Settled := by
  intro b c field existing values hb hc hbe hce v hv
  rcases List.mem_append.1 (mem_of_mem_distinct hv) with hm | hm
  · exact settled_of_equality? hb hbe v hm
  · exact settled_of_equality? hc hce v hm

theorem fuses_wellFormed : Fuses WellFormed := by
  intro b c field existing values hb hc hbe hce
  exact fuses_settled hb.settled hc.settled hbe hce

theorem insertEquality_ne_nil (c : Criteria) (field : String) (values : List Json)
    (should : List Criteria) : insertEquality c field values should ≠ [] := by
  cases should with
  | nil => simp [insertEquality]
  | cons b rest =>
    rw [insertEquality]
    split
    · split <;> simp
    · simp

theorem forall_mem_insertDisjunct {P : Criteria → Prop} (hf : Fuses P) {should : List Criteria}
    (hs : ∀ b ∈ should, P b) (hc : P c) : ∀ b ∈ insertDisjunct should c, P b := by
  rw [insertDisjunct]
  split
  next field values he =>
    intro b hb
    rcases mem_insertEquality hb with h | rfl | ⟨a, existing, ha, hae, rfl⟩
    · exact hs b h
    · exact hc
    · exact hf (hs a ha) hc hae he
  next => exact List.forall_mem_append.2 ⟨hs, List.forall_mem_singleton.2 hc⟩

theorem insertDisjunct_ne_nil (should : List Criteria) (c : Criteria) :
    insertDisjunct should c ≠ [] := by
  rw [insertDisjunct]
  split
  · exact insertEquality_ne_nil _ _ _ _
  · simp

theorem forall_mem_foldl_insertDisjunct {P : Criteria → Prop} (hf : Fuses P)
    (should : List Criteria) {cs : List Criteria} (hs : ∀ d ∈ should, P d) (hc : ∀ c ∈ cs, P c) :
    ∀ c ∈ cs.foldl insertDisjunct should, P c := by
  induction cs generalizing should with
  | nil => exact hs
  | cons c rest ih =>
    rw [List.forall_mem_cons] at hc
    exact ih _ (forall_mem_insertDisjunct hf hs hc.1) hc.2

theorem foldl_insertDisjunct_ne_nil {should cs : List Criteria} (h : should ≠ [] ∨ cs ≠ []) :
    cs.foldl insertDisjunct should ≠ [] := by
  induction cs generalizing should with
  | nil => simpa using h
  | cons c rest ih => exact ih (.inl (insertDisjunct_ne_nil should c))

theorem disjuncts_eq_nil_iff {c : Criteria} : c.disjuncts = [] ↔ c.isEmpty = true := by
  rw [isEmpty_iff]
  fun_cases disjuncts c with
  | case1 should => simp
  | case2 _ hb => simpa using hb []

theorem wellFormed_of_mem_disjuncts {b c : Criteria} (hc : c.WellFormed) (h : b ∈ c.disjuncts) :
    b.WellFormed := by
  unfold disjuncts at h
  split at h
  · exact (wellFormed_bool_iff.1 hc).2.2.1 b h
  · exact List.mem_singleton.1 h ▸ hc

theorem settled_of_mem_disjuncts {b c : Criteria} (hc : c.Settled) (h : b ∈ c.disjuncts) :
    b.Settled := by
  unfold disjuncts at h
  split at h
  · exact (settled_bool_iff.1 hc).2.1 b h
  · exact List.mem_singleton.1 h ▸ hc

/-- What the criteria hand on to those of which a disjunction has to hold one. -/
theorem forall_mem_flatMap_disjuncts {P : Criteria → Prop}
    (hp : ∀ b c : Criteria, P c → b ∈ c.disjuncts → P b) {cs : List Criteria}
    (h : ∀ c ∈ cs, P c) : ∀ b ∈ cs.flatMap disjuncts, P b := by
  intro b hb
  obtain ⟨c, hc, hb⟩ := List.mem_flatMap.1 hb
  exact hp b c (h c hc) hb

theorem flatMap_disjuncts_eq_nil_iff {cs : List Criteria} :
    cs.flatMap disjuncts = [] ↔ kept cs = [] := by
  simp [kept, disjuncts_eq_nil_iff]

theorem foldl_disjuncts_ne_nil {cs : List Criteria} (h : kept cs ≠ []) :
    (cs.flatMap disjuncts).foldl insertDisjunct [] ≠ [] := by
  apply foldl_insertDisjunct_ne_nil
  exact .inr (mt flatMap_disjuncts_eq_nil_iff.1 h)

/-- A disjunction of nothing, or of nothing else, is a `bool` without a clause. -/
theorem any_of_kept_eq_nil {cs : List Criteria} (h : kept cs = []) :
    any cs = .bool [] [] [] := by
  rw [any, flatMap_disjuncts_eq_nil_iff.2 h]
  rfl

theorem kept_eq_self {cs : List Criteria} (h : ∀ c ∈ cs, c ≠ .bool [] [] []) :
    kept cs = cs := by
  rw [kept, List.filter_eq_self]
  intro c hc
  simpa [← isEmpty_iff] using h c hc

end Criteria

namespace Verdict

open Criteria

variable (v : Verdict r d)

theorem accepts_of_equality? {c : Criteria} (h : c.equality? = some (field, values)) :
    v.accepts c = d.has field fun x => values.any (r.equals x) := by
  have hc : c.IsAtom := by cases c <;> trivial
  rw [v.atom hc, holds_of_equality? h]

theorem any_insertEquality {should : List Criteria} (hs : ∀ d ∈ should, d.Settled)
    (hc : c.Settled) (he : c.equality? = some (field, values)) :
    (insertEquality c field values should).any v.accepts =
      (should.any v.accepts || v.accepts c) := by
  fun_induction insertEquality c field values should with
  | case1 => simp
  | case2 b rest existing heq =>
    have hb := settled_of_equality? (hs b (.head _)) heq
    have hfused : v.accepts (.terms field (distinct (existing ++ values))) =
        (v.accepts b || v.accepts c) := by
      rw [v.accepts_of_equality? heq, v.accepts_of_equality? he,
        ← holds_fused hb (settled_of_equality? hc he)]
      exact v.atom trivial
    rw [List.any_cons, hfused, List.any_cons]
    exact Bool.or_right_comm ..
  | case3 b rest f existing _ _ ih =>
    rw [List.any_cons, ih fun x hx => hs x (.tail _ hx), List.any_cons, Bool.or_assoc]
  | case4 b rest _ ih =>
    rw [List.any_cons, ih fun x hx => hs x (.tail _ hx), List.any_cons, Bool.or_assoc]

theorem any_insertDisjunct {should : List Criteria} (hs : ∀ d ∈ should, d.Settled)
    (hc : c.Settled) :
    (insertDisjunct should c).any v.accepts = (should.any v.accepts || v.accepts c) := by
  rw [insertDisjunct]
  split
  next he => exact v.any_insertEquality hs hc he
  next => simp

theorem any_foldl_insertDisjunct (should : List Criteria) {cs : List Criteria}
    (hs : ∀ d ∈ should, d.Settled) (hc : ∀ c ∈ cs, c.Settled) :
    (cs.foldl insertDisjunct should).any v.accepts =
      (should.any v.accepts || cs.any v.accepts) := by
  induction cs generalizing should with
  | nil => simp
  | cons c rest ih =>
    rw [List.forall_mem_cons] at hc
    rw [List.foldl_cons, ih _ (forall_mem_insertDisjunct fuses_settled hs hc.1) hc.2,
      v.any_insertDisjunct hs hc.1, List.any_cons, Bool.or_assoc]

theorem any_disjuncts (c : Criteria) :
    c.disjuncts.any v.accepts = (!c.isEmpty && v.accepts c) := by
  fun_cases disjuncts c with
  | case1 should =>
    cases should with
    | nil => rfl
    | cons => simp [isEmpty, v.bool]
  | case2 _ hb =>
    have hc : c.isEmpty = false := Bool.eq_false_iff.2 fun h => hb [] (isEmpty_iff.1 h)
    simp [hc]

/-- A disjunction finds what one of its criteria does; a `bool` without a clause is not one of
them. -/
theorem accepts_any {cs : List Criteria} (h : ∀ c ∈ cs, c.Settled) (hne : kept cs ≠ []) :
    v.accepts (any cs) = (kept cs).any v.accepts := by
  have hs := v.any_foldl_insertDisjunct [] (by simp)
    (forall_mem_flatMap_disjuncts (fun _ _ => settled_of_mem_disjuncts) h)
  have hc : (cs.flatMap disjuncts).any v.accepts = (kept cs).any v.accepts := by
    simp [kept, List.any_flatMap, v.any_disjuncts, List.any_filter]
  rw [List.any_nil, Bool.false_or, hc] at hs
  rw [← hs]
  rw [any]
  split
  next c he => rw [he]; simp
  next should _ =>
    have hshould := foldl_disjuncts_ne_nil hne
    simp [v.bool (.inr (.inl hshould)), hshould]

end Verdict

namespace Criteria

/-- A disjunction of some criteria holds when one of them does, unless an empty `bool` is dropped
that holds of every document. -/
theorem holds_any_of_settled {cs : List Criteria} (h : ∀ c ∈ cs, c.Settled)
    (hb : ∀ c ∈ cs, c ≠ .bool [] [] []) (hne : cs ≠ []) (r : Reading) (d : Document) :
    (any cs).holds r d = cs.any (holds r d) := by
  have hcs : kept cs = cs := kept_eq_self hb
  have hany : (any cs).holds r d = (kept cs).any (holds r d) :=
    (Verdict.lenient r d).accepts_any h (by rwa [hcs])
  rw [hany, hcs]

theorem holds_any {cs : List Criteria} (h : ∀ c ∈ cs, c.WellFormed) (hne : cs ≠ [])
    (r : Reading) (d : Document) : (any cs).holds r d = cs.any (holds r d) :=
  holds_any_of_settled (fun c hc => (h c hc).settled) (fun c hc => (h c hc).ne_empty) hne r d

theorem wellFormed_any {cs : List Criteria} (h : ∀ c ∈ cs, c.WellFormed) (hne : cs ≠ []) :
    (any cs).WellFormed := by
  have hs := forall_mem_foldl_insertDisjunct fuses_wellFormed [] (by simp)
    (forall_mem_flatMap_disjuncts (fun _ _ => wellFormed_of_mem_disjuncts) h)
  rw [any]
  split
  next c he =>
    rw [he] at hs
    exact hs c (.head _)
  next =>
    have hcs : kept cs = cs := kept_eq_self fun c hc => (h c hc).ne_empty
    have hshould := foldl_disjuncts_ne_nil (by rwa [hcs])
    exact wellFormed_bool_iff.2 ⟨.inr (.inl hshould), by simp, hs, by simp⟩

theorem holds_negate (r : Reading) (d : Document) (c : Criteria) :
    c.negate.holds r d = !c.holds r d := by
  fun_cases negate c with
  | case1 field => simp [holds]
  | case2 field => simp [holds]
  | case3 only => simp [holds_bool]
  | case4 => simp [holds_bool]

theorem wellFormed_negate {c : Criteria} (h : c.WellFormed) : c.negate.WellFormed := by
  fun_cases negate c with
  | case1 field => trivial
  | case2 field => trivial
  | case3 only => exact (wellFormed_bool_iff.1 h).2.2.2 _ (.head _)
  | case4 => exact wellFormed_bool_iff.2 ⟨.inr (.inr (by simp)), by simp, by simp, by simpa using h⟩

/-- What the combinators build holds of the documents that it should, whatever it is built from. -/
theorem combinators_hold_iff (r : Reading) (d : Document) :
    (∀ cs : List Criteria, (all cs).holds r d ↔ ∀ c ∈ cs, c.holds r d) ∧
      (∀ cs : List Criteria, cs ≠ [] → (∀ c ∈ cs, c.Settled ∧ c ≠ .bool [] [] []) →
        ((any cs).holds r d ↔ ∃ c ∈ cs, c.holds r d)) ∧
      ∀ c : Criteria, c.negate.holds r d ↔ ¬c.holds r d := by
  have hall (cs : List Criteria) : (all cs).holds r d ↔ ∀ c ∈ cs, c.holds r d := by
    rw [holds_all, List.all_eq_true]
  have hany (cs : List Criteria) (hne : cs ≠ [])
      (h : ∀ c ∈ cs, c.Settled ∧ c ≠ .bool [] [] []) :
      (any cs).holds r d ↔ ∃ c ∈ cs, c.holds r d := by
    rw [holds_any_of_settled (fun c hc => (h c hc).1) (fun c hc => (h c hc).2) hne,
      List.any_eq_true]
  have hnegate (c : Criteria) : c.negate.holds r d ↔ ¬c.holds r d := by
    rw [holds_negate, Bool.not_eq_true', Bool.not_eq_true]
  exact ⟨hall, hany, hnegate⟩

/-- Criteria that no predicate has: a disjunction of tests that were not fused, a conjunction with a
range that repeats a bound, and a `bool` of three clauses. -/
def handBuilt : List Criteria :=
  [.bool [] [.term "zone" (.nat 1), .present "cost", .terms "zone" [.nat 1, .nat 2]] [],
    .bool [.matchAll, .range "cost" [⟨.above, .nat 5⟩, ⟨.above, .nat 7⟩, ⟨.below, .nat 3⟩]] [] [],
    .term "zone" (.nat 2), .bool [.missing "cost"] [.matchAll] [.present "zone"]]

theorem combinators_hold_iff_handBuilt :
    any handBuilt = .bool [] [.terms "zone" [.nat 1, .nat 2], .present "cost",
        .bool [.matchAll, .range "cost" [⟨.above, .nat 5⟩, ⟨.above, .nat 7⟩, ⟨.below, .nat 3⟩]]
          [] [],
        .bool [.missing "cost"] [.matchAll] [.present "zone"]] [] ∧
      ∀ r d, (any handBuilt).holds r d ↔ ∃ c ∈ handBuilt, c.holds r d := by
  have hshape : ∀ c ∈ handBuilt, c.Settled ∧ c ≠ .bool [] [] [] := by
    simp [handBuilt, Settled, AllSettled, Json.Settled, Json.nat]
  refine ⟨by rfl, fun r d => ?_⟩
  exact (combinators_hold_iff r d).2.1 handBuilt (by simp [handBuilt]) hshape

end Criteria

end SearchQuery
