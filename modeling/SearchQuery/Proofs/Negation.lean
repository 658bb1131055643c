import Mathlib.Algebra.Group.Nat.Even
import SearchQuery.Proofs.NormalForm

/-!
Negation undoes itself on normal criteria, although it sometimes rewrites what it negates. So only
the parity of the negations around a predicate is seen in its criteria.
-/

namespace SearchQuery

namespace Criteria

/-- Criteria without an opposite are negated by a clause. -/
theorem negate_of_not_hasOpposite {c : Criteria} (h : ¬c.HasOpposite) :
    c.negate = .bool [] [] [c] := by
  unfold negate
  split
  · exact absurd .present h
  · exact absurd .missing h
  · exact absurd .negation h
  · rfl

/-- A normal criterion is that of its negation: what stands under a negation has no opposite, so the
clause comes back when it is taken away. -/
theorem negate_negate {c : Criteria} (h : c.Normal) : c.negate.negate = c := by
  by_cases ho : c.HasOpposite
  · cases ho with
    | present => rfl
    | missing => rfl
    | negation =>
      cases h with
      | mustNot hn hc => exact negate_of_not_hasOpposite hc
  · rw [negate_of_not_hasOpposite ho]
    rfl

/-- A negated test for presence is not normal, and does not come back. -/
example : (Criteria.bool [] [] [.present "zone"]).negate.negate = .missing "zone" := rfl

end Criteria

namespace Expr

theorem criteria_not (names : FieldNames) (e : Expr) :
    (not e).criteria names = (e.criteria names).map Criteria.negate := by
  rw [criteria]
  cases e.criteria names <;> rfl

theorem criteria_not_not (names : FieldNames) (e : Expr) :
    (not (not e)).criteria names = e.criteria names := by
  rw [criteria_not, criteria_not]
  cases h : e.criteria names with
  | error => rfl
  | ok c =>
    have hc := Criteria.negate_negate (normal_criteria h)
    exact congrArg Except.ok hc

/-- Of the negations around a predicate an even number is not seen in its criteria, and an odd
number counts as one; a refusal stays what it is. -/
theorem criteria_iterate_not (names : FieldNames) (e : Expr) (n : Nat) :
    (not^[n] e).criteria names =
      if Even n then e.criteria names else (not e).criteria names := by
  induction n with
  | zero => rfl
  | succ n ih =>
    rw [Function.iterate_succ_apply', criteria_not, ih]
    by_cases hn : Even n
    · have hodd : ¬Even (n + 1) := Nat.even_add_one.not.2 (not_not.2 hn)
      rw [if_pos hn, if_neg hodd, criteria_not]
    · have heven : Even (n + 1) := Nat.even_add_one.2 hn
      rw [if_neg hn, if_pos heven, ← criteria_not, criteria_not_not]

end Expr

end SearchQuery
