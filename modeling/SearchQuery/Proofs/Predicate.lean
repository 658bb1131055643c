import SearchQuery.Expr.Criteria
import SearchQuery.Proofs.Disjunction

/-!
The criteria of a predicate hold of exactly the documents that the predicate is true of, whatever
the engine makes of the atoms.
-/

namespace SearchQuery

theorem bind_eq_ok_iff {x : Except ε α} {f : α → Except ε β} :
    (x >>= f) = .ok b ↔ ∃ a, x = .ok a ∧ f a = .ok b := by
  cases x <;> simp [bind, Except.bind]

namespace Criteria

theorem bounded_eq_ok (h : bounded field k v = .ok c) :
    v.isNull = false ∧ c = .range field [⟨k, v⟩] := by
  rw [bounded] at h
  split at h
  · cases h
  next hn =>
    cases h
    exact ⟨Bool.eq_false_iff.2 hn, rfl⟩

theorem wellFormed_bounded (hv : v.Settled) (h : bounded field k v = .ok c) : c.WellFormed := by
  obtain ⟨_, rfl⟩ := bounded_eq_ok h
  exact ⟨List.nodup_singleton _, List.forall_mem_singleton.2 hv⟩

theorem holds_bounded (h : bounded field k v = .ok c) :
    c.holds r d = d.has field (r.bound k · v) := by
  obtain ⟨_, rfl⟩ := bounded_eq_ok h
  simp [holds, Bound.holds]

theorem wellFormed_compare (hv : v.Settled) (h : compare field op v = .ok c) : c.WellFormed := by
  cases op with
  | eq =>
    cases h
    split
    · trivial
    · exact hv
  | ne =>
    cases h
    split
    · trivial
    · exact wellFormed_negate hv
  | gt | ge | lt | le => exact wellFormed_bounded hv h

theorem holds_compare (h : compare field op v = .ok c) :
    c.holds r d = r.compares (d.value? field) op v := by
  cases op with
  | eq =>
    cases h
    rw [Reading.compares]
    split <;> rfl
  | ne =>
    cases h
    rw [Reading.compares]
    split
    · rfl
    · exact holds_negate ..
  | gt | ge | lt | le => exact holds_bounded h

/-- Exchanging the operands of a comparison is reading it from the right. -/
theorem compares_flip (r : Reading) (value : Option Json) (op : Comparison) (v : Json) :
    r.compares value op.flip v = r.comparesConstant v op value := by
  cases op <;> rfl

end Criteria

namespace Expr

theorem wellFormed_compareCriteria (hl : left.Settled) (hr : right.Settled)
    (h : compareCriteria names op left right = .ok c) : c.WellFormed := by
  unfold compareCriteria at h
  split at h
  · exact Criteria.wellFormed_compare hr h
  · exact Criteria.wellFormed_compare hl h
  · cases h

theorem wellFormed_criteria {e : Expr} (he : e.Settled) (h : e.criteria names = .ok c) :
    c.WellFormed := by
  fun_induction criteria names e generalizing c with
  | case1 op left right => exact wellFormed_compareCriteria he.1 he.2 h
  | case2 left right ihl ihr =>
    obtain ⟨l, hl, h⟩ := bind_eq_ok_iff.1 h
    obtain ⟨r, hr, h⟩ := bind_eq_ok_iff.1 h
    cases h
    apply Criteria.wellFormed_all
    simp [ihl he.1 hl, ihr he.2 hr]
  | case3 left right ihl ihr =>
    obtain ⟨l, hl, h⟩ := bind_eq_ok_iff.1 h
    obtain ⟨r, hr, h⟩ := bind_eq_ok_iff.1 h
    cases h
    apply Criteria.wellFormed_any
    · simp [ihl he.1 hl, ihr he.2 hr]
    · simp
  | case4 e ih =>
    obtain ⟨b, hb, h⟩ := bind_eq_ok_iff.1 h
    cases h
    exact Criteria.wellFormed_negate (ih he hb)
  | case5 =>
    cases h
    trivial
  | case6 b =>
    cases h
    cases b
    · exact Criteria.wellFormed_negate (c := .matchAll) trivial
    · trivial
  | case7 =>
    cases h
    trivial
  | case8 =>
    cases h
    trivial
  | case9 => cases h

theorem holds_compareCriteria (h : compareCriteria names op left right = .ok c) :
    c.holds r d = (compare op left right).holds r names d := by
  unfold compareCriteria at h
  split at h
  · exact Criteria.holds_compare h
  · rw [Criteria.holds_compare h, Criteria.compares_flip, holds]
  · cases h

theorem holds_criteria {e : Expr} (he : e.Settled) (h : e.criteria names = .ok c) (r : Reading)
    (d : Document) : c.holds r d = e.holds r names d := by
  fun_induction criteria names e generalizing c with
  | case1 op left right => exact holds_compareCriteria h
  | case2 left right ihl ihr =>
    obtain ⟨l, hl, h⟩ := bind_eq_ok_iff.1 h
    obtain ⟨b, hb, h⟩ := bind_eq_ok_iff.1 h
    cases h
    rw [Criteria.holds_all, holds, ← ihl he.1 hl, ← ihr he.2 hb]
    simp
  | case3 left right ihl ihr =>
    obtain ⟨l, hl, h⟩ := bind_eq_ok_iff.1 h
    obtain ⟨b, hb, h⟩ := bind_eq_ok_iff.1 h
    cases h
    have hwf : ∀ c ∈ [l, b], c.WellFormed := by
      simp [wellFormed_criteria he.1 hl, wellFormed_criteria he.2 hb]
    rw [Criteria.holds_any hwf (by simp), holds, ← ihl he.1 hl, ← ihr he.2 hb]
    simp
  | case4 e ih =>
    obtain ⟨b, hb, h⟩ := bind_eq_ok_iff.1 h
    cases h
    rw [Criteria.holds_negate, holds, ih he hb]
  | case5 =>
    cases h
    rfl
  | case6 b =>
    cases h
    cases b
    · exact Criteria.holds_negate r d .matchAll
    · rfl
  | case7 =>
    cases h
    rfl
  | case8 =>
    cases h
    rfl
  | case9 => cases h

/-- The criteria of a predicate hold of exactly the documents that it is true of. -/
theorem criteria_hold_iff {e : Expr} (he : e.Settled) (h : e.criteria names = .ok c) (r : Reading)
    (d : Document) : c.holds r d ↔ e.holds r names d := by
  rw [holds_criteria he h]

/-- Equalities that are fused across a conjunction whose ranges are merged. -/
theorem criteria_hold_iff_fused :
    ∃ c, criteria ⟨⟨Member.name, id⟩, ""⟩
        (or (or (compare .eq (field "zone") (constant (.string "a")))
          (and (compare .gt (field "cost") (constant (.nat 5)))
            (compare .lt (constant (.nat 7)) (field "cost"))))
          (compare .eq (field "zone") (constant (.string "b")))) = .ok c ∧
      ∀ r d, c.holds r d ↔ holds r ⟨⟨Member.name, id⟩, ""⟩ d
        (or (or (compare .eq (field "zone") (constant (.string "a")))
          (and (compare .gt (field "cost") (constant (.nat 5)))
            (compare .lt (constant (.nat 7)) (field "cost"))))
          (compare .eq (field "zone") (constant (.string "b")))) :=
  ⟨_, rfl, criteria_hold_iff (by simp [Settled, Expr.field, Json.Settled, Json.nat]) rfl⟩

end Expr

end SearchQuery
