import SearchQuery.Criteria.Combine
import SearchQuery.Proofs.Rounding

/-!
Conjunction of ranges whose bounds are numbers. Of two bounds of a kind the one with the stricter
double is kept, and the earlier one when the doubles agree. So a number that all bounds admit is
never refused, and one that some bound refuses is admitted only by another number with the same
nearest double.
-/

namespace SearchQuery

namespace BoundKind

/-- On which side of a point of the number line a bound leaves another point. -/
def leaves : BoundKind → Int → Int → Bool
  | above, limit, x => limit < x
  | atLeast, limit, x => limit ≤ x
  | below, limit, x => x < limit
  | atMost, limit, x => x ≤ limit

/-- A bound at the first point leaves all that one at the second does. -/
def Wider : BoundKind → Int → Int → Prop
  | above, x, y | atLeast, x, y => x ≤ y
  | below, x, y | atMost, x, y => y ≤ x

theorem wider_refl (k : BoundKind) (x : Int) : k.Wider x x := by
  cases k <;> exact Int.le_refl x

theorem wider_trans {k : BoundKind} (h : k.Wider x y) (h' : k.Wider y z) : k.Wider x z := by
  cases k <;> simp only [Wider] at * <;> omega

theorem wider_antisymm {k : BoundKind} (h : k.Wider x y) (h' : k.Wider y x) : x = y := by
  cases k <;> simp only [Wider] at * <;> omega

theorem wider_total (k : BoundKind) (x y : Int) : k.Wider x y ∨ k.Wider y x := by
  cases k <;> simp only [Wider] <;> omega

theorem leaves_of_wider {k : BoundKind} (h : k.Wider x y) (hl : k.leaves y z = true) :
    k.leaves x z = true := by
  cases k <;> simp only [Wider, leaves, decide_eq_true_eq] at * <;> omega

/-- Of two bounds only the wider leaves what the other does not. -/
theorem wider_of_leaves {k : BoundKind} (hx : k.leaves x z = true) (hy : k.leaves y z = false) :
    k.Wider x y := by
  cases k <;> simp only [Wider, leaves, decide_eq_true_eq, decide_eq_false_iff_not] at * <;> omega

/-- The two points themselves tell which of two bounds is the wider. -/
theorem wider_of_forall {k : BoundKind} {m n : Number}
    (h : ∀ x : Number, k.leaves m.units x.units = true → k.leaves n.units x.units = true) :
    k.Wider n.units m.units := by
  have hm := h m
  have hn := h n
  cases k <;> simp only [Wider, leaves, decide_eq_true_eq] at * <;> omega

theorem stricter_iff {k : BoundKind} : k.stricter x y = true ↔ ¬ k.Wider y.units x.units := by
  cases k <;> exact decide_eq_true_iff.trans Int.not_le.symm

theorem wider_toDouble {k : BoundKind} {m n : Number} (h : k.Wider m.units n.units) :
    k.Wider m.toDouble.units n.toDouble.units := by
  cases k <;> exact Number.units_toDouble_mono h

end BoundKind

/-- Whether a bound leaves a number, by the exact values of both. -/
def Bound.admits (x : Number) (b : Bound) : Bool :=
  match b.value with
  | .number n => b.kind.leaves n.units x.units
  | _ => false

/-- Whether a conjunction of ranges holds of a number under the field. -/
def Criteria.admits (field : String) (x : Number) (c : Criteria) : Bool :=
  c.conjuncts.all fun
    | .range f bounds => f = field && bounds.all (Bound.admits x)
    | _ => false

/-- A bound whose value is a number. -/
structure Limit where
  kind : BoundKind
  value : Number

namespace Limit

def bound (l : Limit) : Bound := ⟨l.kind, .number l.value⟩

def admits (x : Number) (l : Limit) : Bool := l.kind.leaves l.value.units x.units

theorem all_admits_bound (x : Number) (ls : List Limit) :
    (ls.map bound).all (Bound.admits x) = ls.all (admits x) := by
  rw [List.all_map]
  rfl

/-- The second limit is of the kind of the first, and its double is no wider. -/
def Yields (l k : Limit) : Prop :=
  k.kind = l.kind ∧ l.kind.Wider l.value.toDouble.units k.value.toDouble.units

theorem Yields.refl (l : Limit) : l.Yields l := ⟨rfl, l.kind.wider_refl _⟩

theorem Yields.trans {l m k : Limit} (h : l.Yields m) (h' : m.Yields k) : l.Yields k := by
  obtain ⟨hk, hw⟩ := h
  obtain ⟨hk', hw'⟩ := h'
  rw [hk] at hk' hw'
  exact ⟨hk', BoundKind.wider_trans hw hw'⟩

/-- Different numbers of one kind that have the same nearest double. -/
def Ties (k l : Limit) : Prop :=
  k.kind = l.kind ∧ k.value.units ≠ l.value.units ∧
    k.value.toDouble.units = l.value.toDouble.units

/-- A limit that yields to another one refuses what the other admits only when the two tie. -/
theorem Yields.ties {l k : Limit} (h : l.Yields k) (hk : k.admits x = true)
    (hl : l.admits x = false) : k.Ties l := by
  obtain ⟨hkind, hw⟩ := h
  unfold admits at hk hl
  rw [hkind] at hk
  have hwide := BoundKind.wider_of_leaves hk hl
  refine ⟨hkind, ?_, ?_⟩
  · intro he
    rw [he, hl] at hk
    cases hk
  · exact BoundKind.wider_antisymm (BoundKind.wider_toDouble hwide) hw

/-- Insertion of a bound into a range, for bounds that are numbers. -/
def insert (l : Limit) : List Limit → List Limit
  | [] => [l]
  | k :: rest =>
    if k.kind = l.kind then
      (if l.kind.stricter k.value.toDouble l.value.toDouble then l else k) :: rest
    else k :: insert l rest

theorem bound_insert (l : Limit) (ks : List Limit) :
    l.bound.insert (ks.map bound) = some ((l.insert ks).map bound) := by
  induction ks with
  | nil => rfl
  | cons k rest ih =>
    rw [List.map_cons, Bound.insert, insert]
    by_cases hk : k.kind = l.kind
    · have hb : k.bound.kind = l.bound.kind := hk
      rw [if_pos hb, if_pos hk]
      change some ((if l.kind.stricter k.value.toDouble l.value.toDouble then l.bound
        else k.bound) :: rest.map bound) = _
      rw [List.map_cons, apply_ite bound]
    · have hb : k.bound.kind ≠ l.bound.kind := hk
      rw [if_neg hb, if_neg hk, ih]
      rfl

def merge (existing incoming : List Limit) : List Limit :=
  incoming.foldl (fun kept l => l.insert kept) existing

theorem bound_merge (existing incoming : List Limit) :
    Bound.merge (existing.map bound) (incoming.map bound) =
      some ((merge existing incoming).map bound) := by
  induction incoming generalizing existing with
  | nil => rfl
  | cons l rest ih =>
    rw [List.map_cons, Bound.merge, List.foldlM_cons, bound_insert]
    exact ih _

theorem mem_insert {l : Limit} (h : k ∈ l.insert ks) : k ∈ ks ∨ k = l := by
  induction ks with
  | nil => exact .inr (List.mem_singleton.1 h)
  | cons m rest ih =>
    rw [insert] at h
    split at h
    · rcases List.mem_cons.1 h with rfl | hr
      · split
        · exact .inr rfl
        · exact .inl (.head _)
      · exact .inl (.tail _ hr)
    · rcases List.mem_cons.1 h with rfl | hr
      · exact .inl (.head _)
      · exact (ih hr).imp_left (.tail _)

theorem yields_insert (l : Limit) (ks : List Limit) : ∃ k ∈ l.insert ks, l.Yields k := by
  induction ks with
  | nil => exact ⟨l, .head _, .refl l⟩
  | cons m rest ih =>
    rw [insert]
    by_cases hm : m.kind = l.kind
    · rw [if_pos hm]
      refine ⟨_, .head _, ?_⟩
      split
      next => exact .refl l
      next hs => exact ⟨hm, Classical.not_not.1 (mt BoundKind.stricter_iff.2 hs)⟩
    · rw [if_neg hm]
      obtain ⟨k, hk, hl⟩ := ih
      exact ⟨k, .tail _ hk, hl⟩

/-- What a range had yields to something it has after an insertion. -/
theorem yields_insert_of_mem (l : Limit) (h : m ∈ ks) : ∃ k ∈ l.insert ks, m.Yields k := by
  induction ks with
  | nil => cases h
  | cons a rest ih =>
    rw [insert]
    by_cases ha : a.kind = l.kind
    · rw [if_pos ha]
      rcases List.mem_cons.1 h with rfl | hr
      · refine ⟨_, .head _, ?_⟩
        split
        next hs =>
          have hw := (l.kind.wider_total _ _).resolve_right (BoundKind.stricter_iff.1 hs)
          rw [← ha] at hw
          exact ⟨ha.symm, hw⟩
        next => exact .refl m
      · exact ⟨m, .tail _ hr, .refl m⟩
    · rw [if_neg ha]
      rcases List.mem_cons.1 h with rfl | hr
      · exact ⟨m, .head _, .refl m⟩
      · obtain ⟨k, hk, hm⟩ := ih hr
        exact ⟨k, .tail _ hk, hm⟩

/-- The limits kept are among those given, and every one given yields to one of them. -/
def Covers (kept given : List Limit) : Prop :=
  (∀ k ∈ kept, k ∈ given) ∧ ∀ l ∈ given, ∃ k ∈ kept, l.Yields k

theorem Covers.refl (ls : List Limit) : Covers ls ls :=
  ⟨fun _ h => h, fun l h => ⟨l, h, .refl l⟩⟩

theorem Covers.insert (h : Covers kept given) (l : Limit) :
    Covers (l.insert kept) (given ++ [l]) := by
  obtain ⟨hkept, hgiven⟩ := h
  constructor
  · intro k hk
    rcases mem_insert hk with hk | rfl
    · exact List.mem_append_left _ (hkept k hk)
    · exact List.mem_append_right _ (.head _)
  · intro m hm
    rcases List.mem_append.1 hm with hm | hm
    · obtain ⟨a, ha, hma⟩ := hgiven m hm
      obtain ⟨k, hk, hak⟩ := yields_insert_of_mem l ha
      exact ⟨k, hk, hma.trans hak⟩
    · rw [List.mem_singleton.1 hm]
      exact yields_insert l kept

theorem Covers.merge (h : Covers kept given) (ls : List Limit) :
    Covers (Limit.merge kept ls) (given ++ ls) := by
  induction ls generalizing kept given with
  | nil => rwa [List.append_nil]
  | cons l rest ih =>
    have hrest := ih (h.insert l)
    rwa [List.append_assoc] at hrest

/-- What all limits admit, those kept admit. -/
theorem Covers.all_admits (h : Covers kept given) (ha : given.all (admits x) = true) :
    kept.all (admits x) = true := by
  rw [List.all_eq_true] at ha ⊢
  intro k hk
  exact ha k (h.1 k hk)

/-- What a limit refuses, those kept admit only if one of them ties with it. -/
theorem Covers.ties (h : Covers kept given) (hk : kept.all (admits x) = true) (hl : l ∈ given)
    (hr : admits x l = false) : ∃ k ∈ given, k.Ties l ∧ admits x k = true := by
  obtain ⟨k, hmem, hy⟩ := h.2 l hl
  have hadmits := List.all_eq_true.1 hk k hmem
  exact ⟨k, h.1 k hmem, hy.ties hadmits hr, hadmits⟩

def range (field : String) (ls : List Limit) : Criteria := .range field (ls.map bound)

theorem admits_range (field : String) (x : Number) (ls : List Limit) :
    (range field ls).admits field x = ls.all (admits x) := by
  change (field = field && (ls.map bound).all (Bound.admits x) && true) = _
  rw [all_admits_bound, decide_eq_true rfl, Bool.true_and, Bool.and_true]

/-- The conjunction of ranges on one field. -/
def conjoin (field : String) (ranges : List (List Limit)) : Criteria :=
  .all (ranges.map (range field))

theorem insertConjunct_range (field : String) (kept ls : List Limit) :
    Criteria.insertConjunct [range field kept] (range field ls) =
      [range field (merge kept ls)] := by
  rw [range, range, Criteria.insertConjunct, Criteria.insertRange, if_pos rfl, bound_merge]
  rfl

theorem foldl_insertConjunct_range (field : String) (kept : List Limit)
    (ranges : List (List Limit)) :
    (ranges.map (range field)).foldl Criteria.insertConjunct [range field kept] =
      [range field (merge kept ranges.flatten)] := by
  induction ranges generalizing kept with
  | nil => rfl
  | cons ls rest ih =>
    rw [List.map_cons, List.foldl_cons, insertConjunct_range, ih, List.flatten_cons, merge, merge,
      merge, List.foldl_append]

/-- Ranges on one field become a single range. -/
theorem conjoin_cons (field : String) (first : List Limit) (rest : List (List Limit)) :
    conjoin field (first :: rest) = range field (merge first rest.flatten) := by
  have hc : ((first :: rest).map (range field)).flatMap Criteria.conjuncts =
      (first :: rest).map (range field) := by
    rw [List.flatMap_map]
    exact List.map_eq_flatMap.symm
  have hf : ((first :: rest).map (range field)).foldl Criteria.insertConjunct [] =
      [range field (merge first rest.flatten)] := foldl_insertConjunct_range field first rest
  rw [conjoin, Criteria.all, hc, hf]

theorem covers_conjoin (field : String) (ranges : List (List Limit)) :
    ∃ kept, Covers kept ranges.flatten ∧
      ∀ x, (conjoin field ranges).admits field x = kept.all (admits x) := by
  cases ranges with
  | nil => exact ⟨[], .refl [], fun _ => rfl⟩
  | cons first rest =>
    refine ⟨merge first rest.flatten, ?_, ?_⟩
    · exact (Covers.refl first).merge rest.flatten
    · intro x
      rw [conjoin_cons, admits_range]

theorem admits_conjoin_pair (field : String) (k : BoundKind) (a b x : Number) :
    (conjoin field [[⟨k, a⟩], [⟨k, b⟩]]).admits field x =
      k.leaves (if k.stricter a.toDouble b.toDouble then b else a).units x.units := by
  have hm : merge [⟨k, a⟩] [⟨k, b⟩] =
      [⟨k, if k.stricter a.toDouble b.toDouble then b else a⟩] := by
    change (if k = k then _ else _) = _
    rw [if_pos rfl]
    split <;> rfl
  rw [conjoin_cons, admits_range]
  change (merge [⟨k, a⟩] [⟨k, b⟩]).all (admits x) = _
  rw [hm]
  exact Bool.and_true _

/-- A bound that comes second is lost when it is the stricter one and the doubles agree; other
pairs are conjoined exactly. -/
theorem conjoin_pair_exact (field : String) (k : BoundKind) (a b : Number) :
    (∀ x, (conjoin field [[⟨k, a⟩], [⟨k, b⟩]]).admits field x =
        (k.leaves a.units x.units && k.leaves b.units x.units)) ↔
      ¬ (a.toDouble.units = b.toDouble.units ∧ ¬ k.Wider b.units a.units) := by
  simp only [admits_conjoin_pair]
  by_cases hs : k.stricter a.toDouble b.toDouble = true
  · have hlt := BoundKind.stricter_iff.1 hs
    have hab : k.Wider a.units b.units :=
      (k.wider_total _ _).resolve_right (mt BoundKind.wider_toDouble hlt)
    simp only [if_pos hs]
    constructor
    · intro _ h
      rw [h.1] at hlt
      exact hlt (k.wider_refl _)
    · intro _ x
      have himp := BoundKind.leaves_of_wider (z := x.units) hab
      rw [Bool.eq_iff_iff, Bool.and_eq_true]
      exact ⟨fun h => ⟨himp h, h⟩, fun h => h.2⟩
  · have hle : k.Wider b.toDouble.units a.toDouble.units :=
      Classical.not_not.1 (mt BoundKind.stricter_iff.2 hs)
    simp only [if_neg hs]
    constructor
    · intro h hlost
      apply hlost.2
      apply BoundKind.wider_of_forall
      intro x ha
      have hx := h x
      rw [ha, Bool.true_and] at hx
      exact hx.symm
    · intro h x
      have hba : k.Wider b.units a.units := by
        apply Classical.byContradiction
        intro hn
        have hab := (k.wider_total _ _).resolve_left hn
        exact h ⟨BoundKind.wider_antisymm (BoundKind.wider_toDouble hab) hle, hn⟩
      have himp := BoundKind.leaves_of_wider (z := x.units) hba
      rw [Bool.eq_iff_iff, Bool.and_eq_true]
      exact ⟨fun h => ⟨h, himp h⟩, fun h => h.1⟩

/-- A conjunction of ranges admits what all their bounds admit. Beyond that it admits a number only
where a bound that refuses it ties with one that does not. Of two bounds the stricter is lost
exactly when it comes second and ties with the first. -/
theorem conjoin_exact_but_for_ties (field : String) :
    (∀ (ranges : List (List Limit)) (x : Number),
      (ranges.flatten.all (admits x) = true → (conjoin field ranges).admits field x = true) ∧
      ((conjoin field ranges).admits field x = true → ∀ l ∈ ranges.flatten,
        admits x l = true ∨ ∃ k ∈ ranges.flatten, k.Ties l ∧ admits x k = true)) ∧
    ∀ (k : BoundKind) (a b : Number),
      (∀ x, (conjoin field [[⟨k, a⟩], [⟨k, b⟩]]).admits field x =
          (admits x ⟨k, a⟩ && admits x ⟨k, b⟩)) ↔
        ¬ (a.toDouble.units = b.toDouble.units ∧ ¬ k.Wider b.units a.units) := by
  constructor
  · intro ranges x
    obtain ⟨kept, hcovers, heq⟩ := covers_conjoin field ranges
    rw [heq]
    constructor
    · exact hcovers.all_admits
    · intro hk l hl
      cases hr : admits x l with
      | true => exact .inl rfl
      | false => exact .inr (hcovers.ties hk hl hr)
  · intro k a b
    exact conjoin_pair_exact field k a b

theorem conjoin_exact_but_for_ties_mixed :
    (conjoin "price" [[⟨.atLeast, .int 10⟩], [⟨.atLeast, .int 12⟩, ⟨.below, .int 20⟩]]).admits
        "price" (.int 15) = true ∧
      ((∃ k ∈ [Limit.mk .above (.int 9007199254740992), ⟨.above, .int 9007199254740993⟩],
          k.Ties ⟨.above, .int 9007199254740993⟩ ∧ admits (.int 9007199254740993) k = true) ∧
        ∀ x, (conjoin "id" [[⟨.above, .int 9007199254740993⟩],
            [⟨.above, .int 9007199254740992⟩]]).admits "id" x =
          (admits x ⟨.above, .int 9007199254740993⟩ &&
            admits x ⟨.above, .int 9007199254740992⟩)) := by
  refine ⟨?_, ?_, ?_⟩
  · exact ((conjoin_exact_but_for_ties "price").1 _ _).1 (by decide +kernel)
  · have hties := ((conjoin_exact_but_for_ties "id").1 [[⟨.above, .int 9007199254740992⟩],
      [⟨.above, .int 9007199254740993⟩]] (.int 9007199254740993)).2 (by decide +kernel)
      ⟨.above, .int 9007199254740993⟩ (.tail _ (.head _))
    exact hties.resolve_left (by decide +kernel)
  · apply ((conjoin_exact_but_for_ties "id").2 _ _ _).2
    intro h
    exact h.2 (by change (_ : Int) ≤ _; decide +kernel)

/-- Above `2 ^ 53` two integers have the same double, and the bound at the second is lost. -/
theorem conjoin_loses_bound :
    (conjoin "id" [[⟨.above, .int 9007199254740992⟩], [⟨.above, .int 9007199254740993⟩]]).admits
        "id" (.int 9007199254740993) = true ∧
      admits (.int 9007199254740993) ⟨.above, .int 9007199254740993⟩ = false := by
  decide +kernel

end Limit

end SearchQuery
