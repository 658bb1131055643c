import Mathlib.Data.List.SplitBy

/-!
Stable sorts. A sorted list is known by the order in which those of its items come that tie; so
sorting again by another order, and sorting each run of ties, are sorts by both orders.
-/

namespace SearchQuery

/-- Whether neither of two items has to come before the other one. -/
def ties (le : α → α → Bool) (a b : α) : Bool := le a b && le b a

/-- The second order decides where the first one ties. -/
def lex (le le' : α → α → Bool) (a b : α) : Bool := le a b && (!le b a || le' a b)

/-- What may decide which items come first. -/
structure IsOrder (le : α → α → Bool) : Prop where
  total : ∀ a b, (le a b || le b a) = true
  trans : ∀ a b c, le a b = true → le b c = true → le a c = true

theorem ties_comm (le : α → α → Bool) (a b : α) : ties le a b = ties le b a := Bool.and_comm ..

theorem lex_eq_true_iff {le le' : α → α → Bool} {a b : α} :
    lex le le' a b = true ↔ le a b = true ∧ (le b a = true → le' a b = true) := by
  cases h : le b a <;> simp [lex, h]

theorem ties_lex (le le' : α → α → Bool) (a b : α) :
    ties (lex le le') a b = (ties le a b && ties le' a b) := by
  cases hab : le a b <;> cases hba : le b a <;> simp [ties, lex, hab, hba]

theorem lex_assoc (le₁ le₂ le₃ : α → α → Bool) :
    lex (lex le₁ le₂) le₃ = lex le₁ (lex le₂ le₃) := by
  funext a b
  cases hab : le₁ a b <;> cases hba : le₁ b a <;> simp [lex, hab, hba]

/-- Where the second order ties, the first one ties too. -/
theorem lex_lex_self (le le' : α → α → Bool) : lex (lex le le') le = lex le le' := by
  funext a b
  cases hab : le a b <;> simp [lex, hab]

namespace IsOrder

variable {le le' : α → α → Bool}

theorem refl (h : IsOrder le) (a : α) : le a a = true := by
  simpa using h.total a a

theorem ties_refl (h : IsOrder le) (a : α) : ties le a a = true := by
  simp [ties, h.refl a]

theorem ties_trans (h : IsOrder le) (hab : ties le a b = true) (hbc : ties le b c = true) :
    ties le a c = true := by
  rw [ties, Bool.and_eq_true] at hab hbc ⊢
  exact ⟨h.trans a b c hab.1 hbc.1, h.trans c b a hbc.2 hab.2⟩

protected theorem lex (h : IsOrder le) (h' : IsOrder le') : IsOrder (lex le le') := by
  constructor
  · intro a b
    rw [Bool.or_eq_true, lex_eq_true_iff, lex_eq_true_iff]
    have ht := h.total a b
    have ht' := h'.total a b
    rw [Bool.or_eq_true] at ht ht'
    cases hab : le a b <;> cases hba : le b a <;> simp_all
  · intro a b c hab hbc
    rw [lex_eq_true_iff] at hab hbc ⊢
    refine ⟨h.trans a b c hab.1 hbc.1, fun hca => ?_⟩
    have hba := h.trans b c a hbc.1 hca
    have hcb := h.trans c a b hca hab.1
    exact h'.trans a b c (hab.2 hba) (hbc.2 hcb)

/-- Items that tie stay in their order. -/
theorem filter_ties_mergeSort (h : IsOrder le) (a : α) (xs : List α) :
    (xs.mergeSort le).filter (ties le a) = xs.filter (ties le a) := by
  have hsorted : (xs.filter (ties le a)).Pairwise fun x y => le x y = true := by
    rw [List.pairwise_iff_forall_sublist]
    intro x y hxy
    have hx := List.of_mem_filter (hxy.subset (.head _))
    have hy := List.of_mem_filter (hxy.subset (.tail _ (.head _)))
    rw [ties_comm] at hx
    have ht := h.ties_trans hx hy
    rw [ties, Bool.and_eq_true] at ht
    exact ht.1
  have hsub := (List.sublist_mergeSort h.trans h.total hsorted List.filter_sublist).filter
    (ties le a)
  rw [List.filter_filter] at hsub
  simp only [Bool.and_self] at hsub
  exact (hsub.eq_of_length ((List.mergeSort_perm xs le).filter _).length_eq.symm).symm

/-- Sorted items are known by the order in which those that tie come. -/
theorem eq_of_filter_ties (h : IsOrder le) {xs ys : List α}
    (hx : xs.Pairwise fun a b => le a b = true) (hy : ys.Pairwise fun a b => le a b = true)
    (hf : ∀ a, xs.filter (ties le a) = ys.filter (ties le a)) : xs = ys := by
  induction xs generalizing ys with
  | nil =>
    cases ys with
    | nil => rfl
    | cons y ys =>
      have hnil := hf y
      rw [List.filter_cons_of_pos (h.ties_refl y)] at hnil
      cases hnil
  | cons x xs ih =>
    cases ys with
    | nil =>
      have hnil := hf x
      rw [List.filter_cons_of_pos (h.ties_refl x)] at hnil
      cases hnil
    | cons y ys =>
      have hmem {a : α} : a ∈ x :: xs ↔ a ∈ y :: ys := by
        have hiff : a ∈ (x :: xs).filter (ties le a) ↔ a ∈ (y :: ys).filter (ties le a) := by
          rw [hf a]
        simpa only [List.mem_filter, h.ties_refl, and_true] using hiff
      have hxy := hx.rel_head_of_rel_head_head (hmem.2 (.head _)) (h.refl x)
      have hyx := hy.rel_head_of_rel_head_head (hmem.1 (.head _)) (h.refl y)
      have ht : ties le x y = true := by
        rw [ties, Bool.and_eq_true]
        exact ⟨hxy, hyx⟩
      have hhead := hf x
      rw [List.filter_cons_of_pos (h.ties_refl x), List.filter_cons_of_pos ht] at hhead
      obtain rfl : x = y := (List.cons.inj hhead).1
      rw [ih hx.of_cons hy.of_cons]
      intro a
      have ha := hf a
      simp only [List.filter_cons] at ha
      split at ha
      · exact (List.cons.inj ha).2
      · exact ha

/-- A stable sort is the only list that is sorted and keeps the order of ties. -/
theorem mergeSort_eq (h : IsOrder le) {xs ys : List α}
    (hs : ys.Pairwise fun a b => le a b = true)
    (hf : ∀ a, ys.filter (ties le a) = xs.filter (ties le a)) : xs.mergeSort le = ys := by
  apply h.eq_of_filter_ties (List.pairwise_mergeSort h.trans h.total xs) hs
  intro a
  rw [h.filter_ties_mergeSort, hf]

theorem filter_ties_lex (le le' : α → α → Bool) (a : α) (xs : List α) :
    xs.filter (ties (lex le le') a) = (xs.filter (ties le' a)).filter (ties le a) := by
  have ht : ties (lex le le') a = fun b => ties le a b && ties le' a b := funext (ties_lex le le' a)
  rw [ht, List.filter_filter]

theorem filter_ties_comm (le le' : α → α → Bool) (a : α) (xs : List α) :
    (xs.filter (ties le' a)).filter (ties le a) = (xs.filter (ties le a)).filter (ties le' a) := by
  rw [List.filter_filter, List.filter_filter]
  simp only [Bool.and_comm]

/-- Items that tie in two orders stay in their order when one of the two sorts them. -/
theorem filter_ties_lex_right (h' : IsOrder le') (a : α) (xs : List α) :
    (xs.mergeSort le').filter (ties (lex le le') a) = xs.filter (ties (lex le le') a) := by
  rw [filter_ties_lex, h'.filter_ties_mergeSort, filter_ties_lex]

theorem filter_ties_lex_left (h : IsOrder le) (a : α) (xs : List α) :
    (xs.mergeSort le).filter (ties (lex le le') a) = xs.filter (ties (lex le le') a) := by
  rw [filter_ties_lex, filter_ties_comm, h.filter_ties_mergeSort, filter_ties_comm, filter_ties_lex]

/-- After another sort the one before it decides ties. -/
theorem mergeSort_mergeSort (h : IsOrder le) (h' : IsOrder le') (xs : List α) :
    (xs.mergeSort le').mergeSort le = xs.mergeSort (lex le le') := by
  symm
  apply (h.lex h').mergeSort_eq
  · rw [List.pairwise_iff_forall_sublist]
    intro a b hab
    have hle := List.pairwise_iff_forall_sublist.1
      (List.pairwise_mergeSort h.trans h.total (xs.mergeSort le')) hab
    rw [lex_eq_true_iff]
    refine ⟨hle, fun hba => ?_⟩
    -- A pair that ties stands in the order which the first sort gave it.
    have hkept := hab.filter (ties le a)
    have ht : ties le a b = true := by simp [ties, hle, hba]
    rw [List.filter_cons_of_pos (h.ties_refl a), List.filter_cons_of_pos ht, List.filter_nil,
      h.filter_ties_mergeSort] at hkept
    exact List.pairwise_iff_forall_sublist.1 (List.pairwise_mergeSort h'.trans h'.total xs)
      (hkept.trans List.filter_sublist)
  · intro a
    rw [h.filter_ties_lex_left, h'.filter_ties_lex_right]

/-- A sort by the first order alone is lost in one by both. -/
theorem mergeSort_lex (h : IsOrder le) (h' : IsOrder le') (xs : List α) :
    (xs.mergeSort le).mergeSort (lex le le') = xs.mergeSort (lex le le') := by
  rw [(h.lex h').mergeSort_mergeSort h, lex_lex_self]

/-- Runs that end where an item does not tie with the next one are apart as wholes. -/
theorem pairwise_runs (h : IsOrder le) {runs : List (List α)}
    (hs : runs.flatten.Pairwise fun a b => le a b = true)
    (hc : runs.IsChain fun m n => ∃ hm hn, ties le (m.getLast hm) (n.head hn) = false) :
    runs.Pairwise fun m n => ∀ a ∈ m, ∀ b ∈ n, le a b = true ∧ le b a = false := by
  induction runs with
  | nil => exact .nil
  | cons m rest ih =>
    rw [List.flatten_cons, List.pairwise_append] at hs
    obtain ⟨hm, hrest, hcross⟩ := hs
    refine .cons ?_ (ih hrest hc.tail)
    intro n hn a ha b hb
    have hb := List.mem_flatten.2 ⟨n, hn, hb⟩
    refine ⟨hcross a ha b hb, Bool.eq_false_iff.2 fun hba => ?_⟩
    cases rest with
    | nil => cases hn
    | cons next rest =>
      obtain ⟨⟨hne, hne', hends⟩, -⟩ := List.isChain_cons_cons.1 hc
      obtain ⟨first, others, rfl⟩ := List.exists_cons_of_ne_nil hne'
      rw [List.flatten_cons, List.cons_append] at hrest hcross hb
      have hlast := hm.rel_getLast_of_rel_getLast_getLast ha (h.refl _)
      have hfirst := hrest.rel_head_of_rel_head_head hb (h.refl _)
      have hnext := hcross _ (List.getLast_mem hne) first (.head _)
      have hback := h.trans _ _ _ hfirst (h.trans _ _ _ hba hlast)
      rw [List.head_cons] at hback hends
      simp [ties, hnext, hback] at hends

/-- Items of one run all tie. -/
theorem ties_of_mem_splitBy (h : IsOrder le) {xs m : List α} (hm : m ∈ xs.splitBy (ties le)) :
    ∀ a ∈ m, ∀ b ∈ m, ties le a b = true := by
  have htrans : IsTrans α fun a b => ties le a b = true := ⟨fun _ _ _ => h.ties_trans⟩
  have hsymm : Std.Symm fun a b => ties le a b = true := ⟨fun a b hab => ties_comm le a b ▸ hab⟩
  have hpairs := List.isChain_iff_pairwise.1 (List.isChain_of_mem_splitBy hm)
  intro a ha b hb
  exact hpairs.forall_of_forall (fun c _ => h.ties_refl c) ha hb

/-- Sorting each run of items that tie makes the second order decide ties. -/
theorem flatMap_mergeSort_splitBy (h : IsOrder le) (h' : IsOrder le') {xs : List α}
    (hs : xs.Pairwise fun a b => le a b = true) :
    (xs.splitBy (ties le)).flatMap (·.mergeSort le') = xs.mergeSort (lex le le') := by
  have hflat := List.flatten_splitBy (ties le) xs
  symm
  apply (h.lex h').mergeSort_eq
  · have happart := h.pairwise_runs (hflat.symm ▸ hs) (List.isChain_getLast_head_splitBy _ xs)
    rw [List.pairwise_flatMap]
    constructor
    · intro m hm
      refine (List.pairwise_mergeSort h'.trans h'.total m).imp_of_mem fun ha hb hab => ?_
      have ht := h.ties_of_mem_splitBy hm _ (List.mem_mergeSort.1 ha) _ (List.mem_mergeSort.1 hb)
      rw [ties, Bool.and_eq_true] at ht
      exact lex_eq_true_iff.2 ⟨ht.1, fun _ => hab⟩
    · refine happart.imp fun hmn a ha b hb => ?_
      obtain ⟨hab, hba⟩ := hmn a (List.mem_mergeSort.1 ha) b (List.mem_mergeSort.1 hb)
      simp [lex, hab, hba]
  · intro a
    rw [List.filter_flatMap]
    simp only [h'.filter_ties_lex_right]
    rw [← List.filter_flatMap, List.flatMap_id', hflat]

end IsOrder

end SearchQuery
