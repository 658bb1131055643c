import Mathlib.Data.Set.List
import SearchQuery.Proofs.NormalForm
import SearchQuery.Proofs.Tightening

/-!
Conjunction of ranges whose bounds are numbers, kind by kind. Whatever the order of the ranges and
however the bounds are spread over them, one bound of each kind is kept, and its double is the
greatest or the least of those of its kind.
-/

namespace SearchQuery

/-- The greatest or the least of the points, whichever leaves the least. -/
def BoundKind.tightest? : BoundKind → List Int → Option Int
  | above, xs | atLeast, xs => xs.max?
  | below, xs | atMost, xs => xs.min?

theorem BoundKind.tightest?_eq_some_iff {k : BoundKind} {xs : List Int} :
    k.tightest? xs = some x ↔ x ∈ xs ∧ ∀ y ∈ xs, k.Wider y x := by
  cases k with
  | above | atLeast => exact List.max?_eq_some_iff
  | below | atMost => exact List.min?_eq_some_iff

namespace Bound

/-- The doubles nearest to the bounds of a kind, in units. -/
def doubles (k : BoundKind) (bounds : List Bound) : List Int :=
  (bounds.filter (·.kind = k)).filterMap fun b => b.value.toDouble?.map Double.units

/-- One bound is kept of each kind that is given, and it is the tightest. -/
structure Tightest (given kept : List Bound) : Prop where
  subset : ∀ b ∈ kept, b ∈ given
  nodup : (kept.map kind).Nodup
  kinds : ∀ k, k ∈ kept.map kind ↔ k ∈ given.map kind
  tightest : ∀ b ∈ kept, ∃ x, b.value.toDouble? = some x ∧
    b.kind.tightest? (doubles b.kind given) = some x.units

/-- The bounds of a range, no two of a kind, and all of them numbers. -/
structure Numeric (bounds : List Bound) : Prop where
  kinds : (bounds.map kind).Nodup
  values : ∀ b ∈ bounds, b.value.isNumber = true

theorem Tightest.perm (h : Tightest given kept) (hp : given.Perm given') :
    Tightest given' kept := by
  constructor
  · intro b hb
    exact hp.mem_iff.1 (h.subset b hb)
  · exact h.nodup
  · intro k
    exact (h.kinds k).trans (hp.map kind).mem_iff
  · intro b hb
    obtain ⟨x, hx, ht⟩ := h.tightest b hb
    refine ⟨x, hx, ?_⟩
    have hd : (doubles b.kind given).Perm (doubles b.kind given') := (hp.filter _).filterMap _
    rw [BoundKind.tightest?_eq_some_iff] at ht ⊢
    exact ⟨hd.mem_iff.1 ht.1, fun y hy => ht.2 y (hd.mem_iff.2 hy)⟩

end Bound

namespace Limit

theorem mem_range_bound (h : b.value.isNumber = true) : b ∈ Set.range bound := by
  obtain ⟨k, v⟩ := b
  cases v with
  | number n => exact ⟨⟨k, n⟩, rfl⟩
  | _ => cases h

theorem exists_limits {ranges : List (List Bound)}
    (h : ∀ bounds ∈ ranges, ∀ b ∈ bounds, b.value.isNumber = true) :
    ∃ ls : List (List Limit), ls.map (List.map bound) = ranges := by
  change ranges ∈ Set.range (List.map (List.map bound))
  rw [Set.range_list_map]
  intro bounds hbounds
  rw [Set.range_list_map]
  intro b hb
  exact mem_range_bound (h bounds hbounds b hb)

theorem mem_doubles_iff {ls : List Limit} : x ∈ Bound.doubles k (ls.map bound) ↔
    ∃ l ∈ ls, l.kind = k ∧ l.value.toDouble.units = x := by
  simp [Bound.doubles, bound, Json.toDouble?, and_assoc]

theorem kinds_bound (ls : List Limit) : (ls.map bound).map Bound.kind = ls.map kind := List.map_map

theorem nodup_kinds_merge {kept : List Limit} (h : (kept.map kind).Nodup) (ls : List Limit) :
    ((merge kept ls).map kind).Nodup := by
  rw [← kinds_bound] at h ⊢
  apply Bound.merge_induction (P := fun bounds => (bounds.map Bound.kind).Nodup) _ h
    (bound_merge kept ls)
  intro b _ bounds merged hb hm
  exact Bound.nodup_kinds_insert hb hm

/-- All limits of a kind yield to the one that is kept of it. -/
theorem Covers.yields (h : Covers kept given) (hn : (kept.map kind).Nodup) (hk : k ∈ kept)
    (hl : l ∈ given) (he : l.kind = k.kind) : l.Yields k := by
  obtain ⟨k', hk', hy⟩ := h.2 l hl
  have heq : k' = k := List.inj_on_of_nodup_map hn hk' hk (hy.1.trans he)
  rwa [heq] at hy

theorem Covers.tightest (h : Covers kept given) (hn : (kept.map kind).Nodup) :
    Bound.Tightest (given.map bound) (kept.map bound) := by
  constructor
  · exact List.map_subset bound h.1
  · rwa [kinds_bound]
  · intro k
    rw [kinds_bound, kinds_bound, List.mem_map, List.mem_map]
    constructor
    · rintro ⟨l, hl, rfl⟩
      exact ⟨l, h.1 l hl, rfl⟩
    · rintro ⟨l, hl, rfl⟩
      obtain ⟨k, hk, hy⟩ := h.2 l hl
      exact ⟨k, hk, hy.1⟩
  · intro b hb
    obtain ⟨k, hk, rfl⟩ := List.mem_map.1 hb
    refine ⟨k.value.toDouble, rfl, ?_⟩
    rw [BoundKind.tightest?_eq_some_iff]
    constructor
    · exact mem_doubles_iff.2 ⟨k, h.1 k hk, rfl, rfl⟩
    · intro y hy
      obtain ⟨l, hl, he, rfl⟩ := mem_doubles_iff.1 hy
      obtain ⟨-, hw⟩ := h.yields hn hk hl he
      rwa [he] at hw

end Limit

/-- Ranges on one field are conjoined to a single one, which has the tightest bound of each kind. -/
theorem Criteria.all_ranges_tightest (field : String) {ranges order : List (List Bound)}
    (hne : ranges ≠ []) (h : ∀ bounds ∈ ranges, Bound.Numeric bounds) (hp : order.Perm ranges) :
    ∃ kept, Criteria.all (order.map (range field)) = range field kept ∧
      Bound.Tightest ranges.flatten kept := by
  have ho : ∀ bounds ∈ order, Bound.Numeric bounds := fun bounds hb => h bounds (hp.mem_iff.1 hb)
  obtain ⟨ls, rfl⟩ := Limit.exists_limits fun bounds hb => (ho bounds hb).values
  cases ls with
  | nil => exact (hne hp.symm.eq_nil).elim
  | cons first rest =>
    have hn := (ho _ (.head _)).kinds
    refine ⟨(Limit.merge first rest.flatten).map Limit.bound, ?_, ?_⟩
    · rw [List.map_map]
      exact Limit.conjoin_cons field first rest
    · have hcovers := (Limit.Covers.refl first).merge rest.flatten
      rw [Limit.kinds_bound] at hn
      apply (hcovers.tightest (Limit.nodup_kinds_merge hn rest.flatten)).perm
      have hf := hp.flatten
      rwa [← List.map_flatten] at hf

/-- Two identifiers with one double as lower bounds, and upper bounds of both kinds. -/
def Bound.ofId : List (List Bound) :=
  [[⟨.above, .nat 9007199254740992⟩, ⟨.below, .nat 10000000000000000⟩],
    [⟨.above, .nat 9007199254740993⟩],
    [⟨.atMost, .nat 18014398509481984⟩, ⟨.below, .nat 100000000000000000⟩]]

theorem Criteria.all_ranges_tightest_ofId :
    ∃ kept, Criteria.all (Bound.ofId.reverse.map (range "id")) = range "id" kept ∧
      Bound.Tightest Bound.ofId.flatten kept := by
  apply all_ranges_tightest "id"
  · exact List.cons_ne_nil _ _
  · intro bounds hb
    simp only [Bound.ofId, List.mem_cons, List.not_mem_nil, or_false] at hb
    rcases hb with rfl | rfl | rfl <;> constructor <;> decide
  · exact List.reverse_perm Bound.ofId

end SearchQuery
