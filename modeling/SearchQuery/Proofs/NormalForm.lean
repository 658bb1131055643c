import SearchQuery.Proofs.Lossless

/-!
The normal form of criteria: nothing is nested that can be spliced, nothing stands side by side that
can be merged, and nothing is negated that has an opposite. All criteria of requests are in it.
-/

namespace SearchQuery

def Json.isNumber : Json → Bool
  | .number _ => true
  | _ => false

theorem Json.isNumber_iff {v : Json} : v.isNumber = true ↔ ∃ x, v.toDouble? = some x := by
  cases v <;> simp [isNumber, toDouble?]

namespace Bound

/-- Bounds of one kind of which neither is the stricter, since not both are numbers. -/
def Clashes (a b : Bound) : Prop :=
  a.kind = b.kind ∧ ¬(a.value.isNumber = true ∧ b.value.isNumber = true)

/-- Ranges that can not be merged. -/
def Apart (as bs : List Bound) : Prop := ∃ a ∈ as, ∃ b ∈ bs, a.Clashes b

/-- The bounds of a range: at least one, no two of a kind, and none at `null`. -/
structure Proper (bounds : List Bound) : Prop where
  nonempty : bounds ≠ []
  kinds : (bounds.map kind).Nodup
  values : ∀ b ∈ bounds, b.value ≠ .null

theorem Apart.symm (h : Apart as bs) : Apart bs as := by
  obtain ⟨a, ha, b, hb, hk, hn⟩ := h
  exact ⟨b, hb, a, ha, hk.symm, fun hab => hn hab.symm⟩

theorem Proper.insert {b : Bound} (hp : Proper bounds) (hb : b.value ≠ .null)
    (h : b.insert bounds = some merged) : Proper merged := by
  constructor
  · rintro rfl
    have hkinds := kinds_insert h
    have hne := hp.nonempty
    split at hkinds <;> simp_all
  · exact nodup_kinds_insert hp.kinds h
  · intro c hc
    rcases mem_insert h hc with hm | rfl
    · exact hp.values c hm
    · exact hb

theorem Proper.merge (hp : Proper existing) (hi : Proper incoming)
    (h : Bound.merge existing incoming = some merged) : Proper merged := by
  apply merge_induction _ hp h
  intro b hb bounds merged hbounds hinsert
  exact hbounds.insert (hi.values b hb) hinsert

/-- A bound gives way to one of its kind, and a number to a number alone. -/
theorem exists_of_mem_insert {a b : Bound} (h : b.insert bounds = some merged) (ha : a ∈ bounds) :
    ∃ c ∈ merged, c.kind = a.kind ∧ c.value.isNumber = a.value.isNumber := by
  induction bounds generalizing merged with
  | nil => cases ha
  | cons first rest ih =>
    rcases insert_cons h with ⟨hk, x, y, hx, hy, rfl⟩ | ⟨_, tail, ht, rfl⟩
    · rcases List.mem_cons.1 ha with rfl | hr
      · refine ⟨_, .head _, ?_⟩
        have hna := Json.isNumber_iff.2 ⟨x, hx⟩
        have hnb := Json.isNumber_iff.2 ⟨y, hy⟩
        split <;> simp [hk, hna, hnb]
      · exact ⟨a, .tail _ hr, rfl, rfl⟩
    · rcases List.mem_cons.1 ha with rfl | hr
      · exact ⟨a, .head _, rfl, rfl⟩
      · obtain ⟨c, hc, hkept⟩ := ih ht hr
        exact ⟨c, .tail _ hc, hkept⟩

/-- Ranges that are apart stay so when one of them is merged with a third. -/
theorem Apart.merge (h : Apart existing bs) (hm : Bound.merge existing incoming = some merged) :
    Apart merged bs := by
  apply merge_induction (P := fun bounds => Apart bounds bs) _ h hm
  rintro b - bounds merged ⟨a, ha, c, hc, hk, hn⟩ hinsert
  obtain ⟨a', ha', hk', hn'⟩ := exists_of_mem_insert hinsert ha
  refine ⟨a', ha', c, hc, hk'.trans hk, ?_⟩
  rwa [hn']

theorem exists_clashes_of_insert {b : Bound} (h : b.insert bounds = none) :
    ∃ a ∈ bounds, a.Clashes b := by
  induction bounds with
  | nil => cases h
  | cons a rest ih =>
    rw [insert] at h
    split at h
    next hk =>
      refine ⟨a, .head _, hk, ?_⟩
      rintro ⟨ha, hb⟩
      obtain ⟨x, hx⟩ := Json.isNumber_iff.1 ha
      obtain ⟨y, hy⟩ := Json.isNumber_iff.1 hb
      simp [hx, hy] at h
    next =>
      obtain ⟨c, hc, hclash⟩ := ih (Option.map_eq_none_iff.1 h)
      exact ⟨c, .tail _ hc, hclash⟩

/-- A merge fails only for a clash: no bound of its own is in the way of another one. -/
theorem apart_of_merge (hn : (incoming.map kind).Nodup) (h : merge existing incoming = none) :
    Apart existing incoming := by
  induction incoming generalizing existing with
  | nil => cases h
  | cons b rest ih =>
    rw [List.map_cons, List.nodup_cons] at hn
    rw [merge_cons] at h
    cases hb : b.insert existing with
    | none =>
      obtain ⟨a, ha, hclash⟩ := exists_clashes_of_insert hb
      exact ⟨a, ha, b, .head _, hclash⟩
    | some bounds =>
      rw [hb] at h
      obtain ⟨a, ha, c, hc, hclash⟩ := ih hn.2 h
      rcases mem_insert hb ha with hm | rfl
      · exact ⟨a, hm, c, .tail _ hc, hclash⟩
      · exact absurd (hclash.1 ▸ List.mem_map_of_mem hc) hn.1

end Bound

namespace Criteria

/-- Criteria that a conjunction takes as they are. -/
def IsConjunct (c : Criteria) : Prop := c ≠ .matchAll ∧ ∀ items, c ≠ .bool items [] []

/-- Criteria that a disjunction takes as they are. -/
def IsDisjunct (c : Criteria) : Prop := ∀ items, c ≠ .bool [] items []

/-- Criteria whose negation needs no clause. -/
inductive HasOpposite : Criteria → Prop
  | present : HasOpposite (.present field)
  | missing : HasOpposite (.missing field)
  | negation : HasOpposite (.bool [] [] [c])

/-- Criteria that can not be merged, if they are ranges of one field. -/
def Apart (c d : Criteria) : Prop :=
  ∀ field as bs, c = .range field as → d = .range field bs → Bound.Apart as bs

/-- The field that is tested for equality. -/
def tested? (c : Criteria) : Option String := c.equality?.map Prod.fst

/-- The form of all criteria of requests; a `bool` has a single clause. -/
inductive Normal : Criteria → Prop
  | matchAll : Normal .matchAll
  | term (hv : v ≠ .null) : Normal (.term field v)
  | terms (hne : vs ≠ []) (hd : vs.Pairwise fun v w => (v == w) = false)
    (hv : ∀ v ∈ vs, v ≠ .null) : Normal (.terms field vs)
  | range (hb : Bound.Proper bounds) : Normal (.range field bounds)
  | present : Normal (.present field)
  | missing : Normal (.missing field)
  | startsWith : Normal (.startsWith field text)
  | regexp : Normal (.regexp field pattern)
  | queryString : Normal (.queryString text)
  | must (hl : 2 ≤ must.length) (hn : ∀ c ∈ must, Normal c)
    (hf : ∀ c ∈ must, IsConjunct c) (ha : must.Pairwise Apart) :
    Normal (.bool must [] [])
  | should (hl : 2 ≤ should.length) (hn : ∀ c ∈ should, Normal c)
    (hf : ∀ c ∈ should, IsDisjunct c) (ht : (should.filterMap tested?).Nodup) :
    Normal (.bool [] should [])
  | mustNot (hn : Normal c) (ho : ¬c.HasOpposite) : Normal (.bool [] [] [c])

theorem proper_of_normal (h : (range field bounds).Normal) : Bound.Proper bounds := by
  cases h with
  | range hb => exact hb

/-- A range that is put into the list stays apart from those that it could not be merged with. -/
theorem apart_insertRange (hp : must.Pairwise Apart) (hb : (bounds.map Bound.kind).Nodup) :
    (insertRange field bounds must).Pairwise Apart := by
  fun_induction insertRange field bounds must with
  | case1 => exact List.pairwise_singleton ..
  | case2 existing rest merged hm =>
    rw [List.pairwise_cons] at hp ⊢
    refine ⟨?_, hp.2⟩
    rintro c hc f as bs ⟨⟩ rfl
    exact (hp.1 _ hc _ _ _ rfl rfl).merge hm
  | case3 existing rest hm ih =>
    rw [List.pairwise_cons] at hp ⊢
    refine ⟨?_, ih hp.2⟩
    rintro c hc f as bs ⟨⟩ rfl
    -- A range further on may have been merged since: the bound that clashes is still in it.
    rcases mem_insertRange hc with hr | he | ⟨e, merged, he, hm', hc⟩
    · exact hp.1 _ hr _ _ _ rfl rfl
    · cases he
      exact Bound.apart_of_merge hb hm
    · cases hc
      exact ((hp.1 _ he _ _ _ rfl rfl).symm.merge hm').symm
  | case4 f existing rest hne ih =>
    rw [List.pairwise_cons] at hp ⊢
    refine ⟨?_, ih hp.2⟩
    rintro c hc f as bs ⟨⟩ rfl
    rcases mem_insertRange hc with hr | he | ⟨e, merged, _, _, hc⟩
    · exact hp.1 _ hr _ _ _ rfl rfl
    · cases he
      exact absurd rfl hne
    · cases hc
      exact absurd rfl hne
  | case5 c rest hne ih =>
    rw [List.pairwise_cons] at hp ⊢
    refine ⟨?_, ih hp.2⟩
    rintro d hd f as bs rfl
    exact absurd rfl (hne f as)

/-- What the clause of a conjunction may hold. -/
structure Conjuncts (cs : List Criteria) : Prop where
  normal : ∀ c ∈ cs, Normal c
  flat : ∀ c ∈ cs, IsConjunct c
  apart : cs.Pairwise Apart

theorem isConjunct_range (field : String) (bounds : List Bound) :
    (range field bounds).IsConjunct :=
  ⟨by rintro ⟨⟩, by rintro items ⟨⟩⟩

theorem merges_isConjunct : Merges IsConjunct := by
  intro field existing bounds merged _ _ _
  exact isConjunct_range ..

theorem merges_normal : Merges Normal := by
  intro field existing bounds merged he hb hm
  exact .range ((proper_of_normal he).merge (proper_of_normal hb) hm)

theorem conjuncts_insertConjunct {must : List Criteria} {c : Criteria} (h : Conjuncts must)
    (hc : c.Normal) (hf : c.IsConjunct) : Conjuncts (insertConjunct must c) := by
  constructor
  · exact forall_mem_insertConjunct merges_normal h.normal hc
  · exact forall_mem_insertConjunct merges_isConjunct h.flat hf
  · unfold insertConjunct
    split
    · exact apart_insertRange h.apart (proper_of_normal hc).kinds
    next hne =>
      rw [List.pairwise_append]
      refine ⟨h.apart, List.pairwise_singleton .., ?_⟩
      intro b hb d hd field as bs _ hr
      rw [List.mem_singleton.1 hd] at hr
      exact absurd hr (hne field bs)

theorem conjuncts_foldl {must cs : List Criteria} (h : Conjuncts must) (hn : ∀ c ∈ cs, Normal c)
    (hf : ∀ c ∈ cs, IsConjunct c) : Conjuncts (cs.foldl insertConjunct must) := by
  induction cs generalizing must with
  | nil => exact h
  | cons c rest ih =>
    rw [List.forall_mem_cons] at hn hf
    exact ih (conjuncts_insertConjunct h hn.1 hf.1) hn.2 hf.2

theorem Normal.of_mem_conjuncts {b c : Criteria} (h : c.Normal) (hb : b ∈ c.conjuncts) :
    b.Normal ∧ b.IsConjunct := by
  unfold conjuncts at hb
  split at hb
  · cases h with
    | must _ hn hf _ => exact ⟨hn b hb, hf b hb⟩
    | should hl => simp at hl
  · cases hb
  next hc hm =>
    rw [List.mem_singleton.1 hb]
    exact ⟨h, hm, hc⟩

theorem two_le_length {cs : List α} (hn : cs ≠ []) (hs : ∀ c, cs ≠ [c]) : 2 ≤ cs.length := by
  match cs with
  | [] => exact absurd rfl hn
  | [c] => exact absurd rfl (hs c)
  | _ :: _ :: _ => simp

/-- What normal criteria put together may stand in the clause of a conjunction. -/
theorem conjuncts_of_normal {cs : List Criteria} (h : ∀ c ∈ cs, c.Normal) :
    Conjuncts ((cs.flatMap conjuncts).foldl insertConjunct []) := by
  have hparts : ∀ b ∈ cs.flatMap conjuncts, b.Normal ∧ b.IsConjunct := by
    intro b hb
    obtain ⟨c, hc, hb⟩ := List.mem_flatMap.1 hb
    exact (h c hc).of_mem_conjuncts hb
  exact conjuncts_foldl ⟨by simp, by simp, .nil⟩ (fun b hb => (hparts b hb).1)
    fun b hb => (hparts b hb).2

/-- A conjunction of normal criteria is normal. -/
theorem normal_all {cs : List Criteria} (h : ∀ c ∈ cs, c.Normal) : (all cs).Normal := by
  have hall := conjuncts_of_normal h
  rw [all]
  split
  · exact .matchAll
  next c he =>
    rw [he] at hall
    exact hall.normal c (.head _)
  next must hn hs => exact .must (two_le_length hn hs) hall.normal hall.flat hall.apart

/-- What holds before and is kept by every new value holds once repeated values are left out. -/
theorem distinct_induction {P : List Json → Prop} {seen : List Json}
    (hnew : ∀ seen v, P seen → (∀ s ∈ seen, (s == v) = false) → P (seen ++ [v])) (hs : P seen)
    (values : List Json) :
    P (values.foldl (fun seen v => if seen.any (· == v) then seen else seen ++ [v]) seen) := by
  induction values generalizing seen with
  | nil => exact hs
  | cons v rest ih =>
    rw [List.foldl_cons]
    apply ih
    split
    · exact hs
    next hn =>
      apply hnew seen v hs
      simpa using hn

theorem pairwise_distinct (values : List Json) :
    (distinct values).Pairwise fun v w => (v == w) = false := by
  apply distinct_induction (P := fun seen => seen.Pairwise fun v w => (v == w) = false) _ .nil
  intro seen v hs hn
  rw [List.pairwise_append]
  refine ⟨hs, List.pairwise_singleton .., ?_⟩
  intro s hm w hw
  rw [List.mem_singleton.1 hw]
  exact hn s hm

theorem distinct_ne_nil (h : values ≠ []) : distinct values ≠ [] := by
  obtain ⟨v, rest, rfl⟩ := List.exists_cons_of_ne_nil h
  have hfirst : [v] ≠ [] := List.cons_ne_nil v []
  apply distinct_induction (P := fun seen => seen ≠ []) _ hfirst
  intro seen w _ _
  simp

/-- A test for equality has some value, and none of its values is `null`. -/
theorem values_of_normal {c : Criteria} (h : c.Normal) (he : c.equality? = some (field, values)) :
    values ≠ [] ∧ ∀ v ∈ values, v ≠ .null := by
  cases h with
  | term hv =>
    cases he
    exact ⟨by simp, List.forall_mem_singleton.2 hv⟩
  | terms hne _ hv =>
    cases he
    exact ⟨hne, hv⟩
  | _ => cases he

theorem normal_fused (hne : existing ≠ []) (he : ∀ v ∈ existing, v ≠ .null)
    (hv : ∀ v ∈ values, v ≠ .null) : (terms field (distinct (existing ++ values))).Normal := by
  apply Normal.terms
  · exact distinct_ne_nil (by simp [hne])
  · exact pairwise_distinct _
  · intro v hm
    rcases List.mem_append.1 (mem_of_mem_distinct hm) with h | h
    · exact he v h
    · exact hv v h

theorem tested?_of_equality? {c : Criteria} (h : c.equality? = some (field, values)) :
    c.tested? = some field := by
  rw [tested?, h]
  rfl

/-- A field that is tested already keeps its place, and a new one comes last. -/
theorem tested_insertEquality {c : Criteria} (hc : c.equality? = some (field, values))
    (should : List Criteria) : (insertEquality c field values should).filterMap tested? =
      if field ∈ should.filterMap tested? then should.filterMap tested?
      else should.filterMap tested? ++ [field] := by
  fun_induction insertEquality c field values should with
  | case1 => simp [tested?_of_equality? hc]
  | case2 d rest existing heq =>
    have hd := tested?_of_equality? heq
    have hfused : (terms field (distinct (existing ++ values))).tested? = some field := rfl
    simp [hd, hfused]
  | case3 d rest f existing heq hne ih =>
    have hd := tested?_of_equality? heq
    simp only [List.filterMap_cons, hd, ih, List.mem_cons, Ne.symm hne, false_or]
    split <;> rfl
  | case4 d rest heq ih =>
    have hd : d.tested? = none := by rw [tested?, heq]; rfl
    simp only [List.filterMap_cons, hd, ih]

/-- What the clause of a disjunction may hold. -/
structure Disjuncts (cs : List Criteria) : Prop where
  normal : ∀ c ∈ cs, Normal c
  flat : ∀ c ∈ cs, IsDisjunct c
  tested : (cs.filterMap tested?).Nodup

theorem fuses_isDisjunct : Fuses IsDisjunct := by
  rintro b c field existing values _ _ _ _ items ⟨⟩

theorem fuses_normal : Fuses Normal := by
  intro b c field existing values hb hc hbe hce
  obtain ⟨hne, he⟩ := values_of_normal hb hbe
  exact normal_fused hne he (values_of_normal hc hce).2

theorem disjuncts_insertDisjunct {should : List Criteria} {c : Criteria} (h : Disjuncts should)
    (hc : c.Normal) (hf : c.IsDisjunct) : Disjuncts (insertDisjunct should c) := by
  constructor
  · exact forall_mem_insertDisjunct fuses_normal h.normal hc
  · exact forall_mem_insertDisjunct fuses_isDisjunct h.flat hf
  · rw [insertDisjunct]
    split
    next field values heq =>
      rw [tested_insertEquality heq]
      split
      · exact h.tested
      next hn =>
        rw [List.nodup_append]
        refine ⟨h.tested, List.nodup_singleton _, ?_⟩
        rintro f hm g hg rfl
        exact hn (List.mem_singleton.1 hg ▸ hm)
    next heq =>
      have ht : c.tested? = none := by rw [tested?, heq]; rfl
      simpa [ht] using h.tested

theorem disjuncts_foldl {should cs : List Criteria} (h : Disjuncts should)
    (hn : ∀ c ∈ cs, Normal c) (hf : ∀ c ∈ cs, IsDisjunct c) :
    Disjuncts (cs.foldl insertDisjunct should) := by
  induction cs generalizing should with
  | nil => exact h
  | cons c rest ih =>
    rw [List.forall_mem_cons] at hn hf
    exact ih (disjuncts_insertDisjunct h hn.1 hf.1) hn.2 hf.2

theorem Normal.of_mem_disjuncts {b c : Criteria} (h : c.Normal) (hb : b ∈ c.disjuncts) :
    b.Normal ∧ b.IsDisjunct := by
  unfold disjuncts at hb
  split at hb
  · cases h with
    | must hl => simp at hl
    | should _ hn hf _ => exact ⟨hn b hb, hf b hb⟩
  next hc =>
    rw [List.mem_singleton.1 hb]
    exact ⟨h, hc⟩

theorem Normal.disjuncts_ne_nil {c : Criteria} (h : c.Normal) : c.disjuncts ≠ [] := by
  unfold disjuncts
  split
  · rintro rfl
    cases h with
    | must hl | should hl => simp at hl
  · simp

/-- A disjunction of some normal criteria is normal. -/
theorem normal_any {cs : List Criteria} (h : ∀ c ∈ cs, c.Normal) (hne : cs ≠ []) :
    (any cs).Normal := by
  have hparts : ∀ b ∈ cs.flatMap disjuncts, b.Normal ∧ b.IsDisjunct := by
    intro b hb
    obtain ⟨c, hc, hb⟩ := List.mem_flatMap.1 hb
    exact (h c hc).of_mem_disjuncts hb
  have hany : Disjuncts ((cs.flatMap disjuncts).foldl insertDisjunct []) :=
    disjuncts_foldl ⟨by simp, by simp, .nil⟩ (fun b hb => (hparts b hb).1)
      fun b hb => (hparts b hb).2
  have hsome : (cs.flatMap disjuncts).foldl insertDisjunct [] ≠ [] := by
    obtain ⟨c, rest, rfl⟩ := List.exists_cons_of_ne_nil hne
    apply foldl_insertDisjunct_ne_nil
    simp [(h c (.head _)).disjuncts_ne_nil]
  rw [any]
  split
  next c he =>
    rw [he] at hany
    exact hany.normal c (.head _)
  next should hs => exact .should (two_le_length hsome hs) hany.normal hany.flat hany.tested

theorem normal_negate {c : Criteria} (h : c.Normal) : c.negate.Normal := by
  unfold negate
  split
  · exact .missing
  · exact .present
  · cases h with
    | mustNot hn _ => exact hn
  next hp hm hb =>
    apply Normal.mustNot h
    rintro (_ | _ | _)
    · exact hp _ rfl
    · exact hm _ rfl
    · exact hb _ rfl

theorem normal_bounded (h : bounded field k v = .ok c) : c.Normal := by
  obtain ⟨hv, rfl⟩ := bounded_eq_ok h
  apply Normal.range
  constructor
  · simp
  · exact List.nodup_singleton _
  · intro b hb
    rw [List.mem_singleton.1 hb]
    rintro rfl
    cases hv

theorem ne_null_of_isNull {v : Json} (h : ¬v.isNull = true) : v ≠ .null := by
  rintro rfl
  exact h rfl

theorem normal_compare (h : compare field op v = .ok c) : c.Normal := by
  cases op with
  | eq =>
    cases h
    split
    · exact .missing
    next hn => exact .term (ne_null_of_isNull hn)
  | ne =>
    cases h
    split
    · exact .present
    next hn => exact normal_negate (.term (ne_null_of_isNull hn))
  | gt | ge | lt | le => exact normal_bounded h

end Criteria

namespace Expr

theorem normal_compareCriteria (h : compareCriteria names op left right = .ok c) : c.Normal := by
  unfold compareCriteria at h
  split at h
  · exact Criteria.normal_compare h
  · exact Criteria.normal_compare h
  · cases h

/-- The criteria of every predicate are normal. -/
theorem normal_criteria {e : Expr} (h : e.criteria names = .ok c) : c.Normal := by
  fun_induction criteria names e generalizing c with
  | case1 op left right => exact normal_compareCriteria h
  | case2 left right ihl ihr =>
    obtain ⟨l, hl, h⟩ := bind_eq_ok_iff.1 h
    obtain ⟨r, hr, h⟩ := bind_eq_ok_iff.1 h
    cases h
    apply Criteria.normal_all
    simp [ihl hl, ihr hr]
  | case3 left right ihl ihr =>
    obtain ⟨l, hl, h⟩ := bind_eq_ok_iff.1 h
    obtain ⟨r, hr, h⟩ := bind_eq_ok_iff.1 h
    cases h
    apply Criteria.normal_any
    · simp [ihl hl, ihr hr]
    · simp
  | case4 e ih =>
    obtain ⟨b, hb, h⟩ := bind_eq_ok_iff.1 h
    cases h
    exact Criteria.normal_negate (ih hb)
  | case5 =>
    cases h
    exact .term (by simp)
  | case6 b =>
    cases h
    cases b
    · exact Criteria.normal_negate .matchAll
    · exact .matchAll
  | case7 =>
    cases h
    exact .startsWith
  | case8 =>
    cases h
    exact .regexp
  | case9 => cases h

end Expr

/-- The filter of the facet that an aggregate asks for is the criteria of its predicate. -/
theorem GroupedProjection.normal_facet (h : facet names key a argument = .ok f) :
    ∀ c ∈ f.body.filter?, c.Normal := by
  intro c hc
  cases a with
  | count =>
    obtain ⟨filter, hf, h⟩ := bind_eq_ok_iff.1 h
    have hfilter : ∀ c ∈ filter, c.Normal := by
      rintro c ⟨⟩
      cases argument with
      | none => cases hf
      | some e =>
        rw [Option.mapM_some] at hf
        obtain ⟨b, hb, hf⟩ := bind_eq_ok_iff.1 hf
        cases hf
        exact Expr.normal_criteria hb
    cases key with
    | none =>
      cases h
      cases hc
      cases filter with
      | none => exact .matchAll
      | some b => exact hfilter b rfl
    | some k =>
      cases h
      exact hfilter c hc
  | sum | average | min | max =>
    cases argument with
    | none => cases h
    | some e =>
      obtain ⟨field, _, h⟩ := bind_eq_ok_iff.1 h
      cases key <;> cases h <;> cases hc

namespace Draft

/-- All criteria that were collected are normal. -/
structure Normal (d : Draft) : Prop where
  filters : ∀ c ∈ d.filters, c.Normal
  queries : ∀ c ∈ d.queries, c.Normal

theorem Next.normal (h : Next names d s d') (hd : d.Normal) : d'.Normal := by
  cases h with
  | filter _ hc =>
    refine ⟨List.forall_mem_append.2 ⟨hd.filters, ?_⟩, hd.queries⟩
    exact List.forall_mem_singleton.2 (Expr.normal_criteria hc)
  | query _ hc =>
    refine ⟨hd.filters, List.forall_mem_append.2 ⟨hd.queries, ?_⟩⟩
    exact List.forall_mem_singleton.2 (Expr.normal_criteria hc)
  | queryString =>
    refine ⟨hd.filters, List.forall_mem_append.2 ⟨hd.queries, ?_⟩⟩
    exact List.forall_mem_singleton.2 .queryString
  | execute _ hc =>
    refine ⟨List.forall_mem_append.2 ⟨hd.filters, ?_⟩, hd.queries⟩
    rcases Expr.mapM_criteria_toList hc with ⟨_, rfl⟩ | ⟨e, c, _, he, rfl⟩
    · simp
    · exact List.forall_mem_singleton.2 (Expr.normal_criteria he)
  | orderBy | orderByScore | skip | take | groupBy | select | executeSelected | selectGroups
  | takeGroups => exact ⟨hd.filters, hd.queries⟩

theorem Runs.normal (h : Runs names d steps d') (hd : d.Normal) : d'.Normal := by
  induction h with
  | nil => exact hd
  | cons hn _ ih => exact ih (hn.normal hd)

/-- The filters of facets are normal, whichever aggregates share them. -/
theorem Lowered.normal (hd : d.Lowered names) (h : finish d source docType = .ok p)
    (hf : f ∈ p.request.facets) : ∀ c ∈ f.body.filter?, c.Normal := by
  obtain ⟨-, -, -, hnil | ⟨g, limit, hg, he⟩⟩ := finish_request h
  · simp [hnil] at hf
  · obtain ⟨key, e, hp⟩ := hd g limit hg
    rw [he, GroupedProjection.facets_limitedTo] at hf
    obtain ⟨b, hb, rfl⟩ := List.mem_map.1 hf
    rw [FacetBody.filter?_limitedTo]
    rcases (GroupedProjection.lowers_ofExpr hp).requested b hb with
      ⟨a, argument, own, -, ho, hbody⟩ | ⟨k, -, rfl⟩
    · rw [hbody]
      exact GroupedProjection.normal_facet ho
    · simp [GroupedProjection.counting, FacetBody.filter?]

end Draft

theorem Criteria.normal_all? {cs : List Criteria} (h : ∀ c ∈ cs, c.Normal) :
    ∀ c ∈ all? cs, c.Normal := by
  rw [all?]
  split
  · simp
  · rintro c ⟨⟩
    exact normal_all h

namespace Query

/-- All criteria of a request are normal, and those of its hits are not left to say nothing. -/
theorem request_normal {q : Query} {names : FieldNames} (h : q.plan names = .ok p) :
    (∀ c ∈ p.request.filter, c.Normal ∧ c ≠ .matchAll) ∧
      (∀ c ∈ p.request.query, c.Normal ∧ c ≠ .matchAll) ∧
      ∀ f ∈ p.request.facets, ∀ c ∈ f.body.filter?, c.Normal := by
  obtain ⟨-, d, hruns, hfinish⟩ := plan_eq_ok_iff.1 h
  have hd : d.Normal := hruns.normal ⟨by simp, by simp⟩
  have hlowered := hruns.lowered (Draft.lowered_empty names)
  obtain ⟨hfilter, hquery, -⟩ := Draft.finish_request hfinish
  rw [hfilter, hquery]
  refine ⟨?_, ?_, fun f hf => hlowered.normal hfinish hf⟩
  · intro c hc
    refine ⟨Criteria.normal_all? hd.filters c hc, ?_⟩
    rintro rfl
    exact Criteria.all?_ne_matchAll d.filters hc
  · intro c hc
    refine ⟨Criteria.normal_all? hd.queries c hc, ?_⟩
    rintro rfl
    exact Criteria.all?_ne_matchAll d.queries hc

/-- A field with bounds that can not be merged, and a negated choice of two values. -/
def tangled : Query :=
  ⟨"Robot", [.filter (some (.and (.compare .gt (.field "cost") (.constant (.nat 5)))
      (.compare .gt (.field "cost") (.constant (.string "m"))))),
    .filter (some (.not (.or (.compare .eq (.field "zone") (.constant (.string "a")))
      (.compare .eq (.field "zone") (.constant (.string "b"))))))]⟩

theorem request_normal_tangled : ∃ p c, tangled.plan ⟨⟨Member.name, id⟩, ""⟩ = .ok p ∧
    p.request.filter = some c ∧ c.Normal ∧ c ≠ .matchAll := by
  have h : tangled.plan ⟨⟨Member.name, id⟩, ""⟩ = .ok _ := rfl
  obtain ⟨hn, hm⟩ := (request_normal h).1 _ rfl
  exact ⟨_, _, rfl, rfl, hn, hm⟩

end Query

end SearchQuery
