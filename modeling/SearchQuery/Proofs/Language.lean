import SearchQuery.Proofs.Arguments
import SearchQuery.Proofs.Paging

/-!
The language of the queries that have a plan: operations on documents, and then a value, a
projection or groups. Every other query is refused.
-/

namespace SearchQuery

/-- Nothing is ordered against `null`. -/
def Comparison.Compares (op : Comparison) (v : Json) : Prop := op = .eq ∨ op = .ne ∨ v ≠ .null

theorem Comparison.compares_flip {op : Comparison} : op.flip.Compares v ↔ op.Compares v := by
  cases op <;> simp [Compares, flip]

namespace Expr

/-- Conditions on a document. -/
inductive IsPredicate : Expr → Prop
  | member : IsPredicate (.member m)
  | constant : IsPredicate (.constant (.bool b))
  | startsWith : IsPredicate (.startsWith m text)
  | regexp : IsPredicate (.regexp m pattern)
  | compare (hv : op.Compares v) : IsPredicate (.compare op (.member m) (.constant v))
  | compareConstant (hv : op.Compares v) : IsPredicate (.compare op (.constant v) (.member m))
  | and (hl : IsPredicate left) (hr : IsPredicate right) : IsPredicate (.and left right)
  | or (hl : IsPredicate left) (hr : IsPredicate right) : IsPredicate (.or left right)
  | not (he : IsPredicate e) : IsPredicate (.not e)

/-- What a document may be projected to. -/
inductive IsProjection : Expr → Prop
  | member : IsProjection (.member m)
  | record (he : ∀ f ∈ fields, ∃ m, f.2 = .member m) : IsProjection (.record fields)

/-- What documents may be grouped by. -/
inductive IsGroupKey : Expr → Prop
  | member : IsGroupKey (.member m)
  | constant : IsGroupKey (.constant v)

/-- What may stand in a column of groups. -/
inductive IsColumn : Expr → Prop
  | groupKey : IsColumn .groupKey
  | count : IsColumn (.aggregate .count none)
  | countOf (he : IsPredicate e) : IsColumn (.aggregate .count (some e))
  | ofMember (ha : a ≠ .count) : IsColumn (.aggregate a (some (.member m)))

/-- What groups may be projected to. -/
inductive IsGroupProjection : Expr → Prop
  | column (he : IsColumn e) : IsGroupProjection e
  | record (hn : (fields.map Prod.fst).Nodup) (he : ∀ f ∈ fields, IsColumn f.2) :
    IsGroupProjection (.record fields)

end Expr

/-- Operations that documents are left by. -/
inductive Step.OnDocuments : Step → Prop
  | filter (he : e.IsPredicate) : OnDocuments (.filter (some e))
  | query (he : e.IsPredicate) : OnDocuments (.query (some e))
  | queryString : OnDocuments (.queryString (some text))
  | orderBy : OnDocuments (.orderBy (some (.member m)) descending secondary)
  | orderByScore : OnDocuments (.orderByScore descending secondary)
  | skip : OnDocuments (.skip n)
  | take : OnDocuments (.take n)

/-- How a chain may go on to its end from documents, of which a page may have been taken. -/
inductive Step.Ending : Bool → List Step → Prop
  | documents : Ending paged []
  | execute (he : ∀ e ∈ predicate, e.IsPredicate) : Ending paged [.execute terminal predicate]
  | select (he : e.IsProjection) (hc : ∀ s ∈ cuts, Step.pages s = true) :
    Ending paged (.select (some e) :: cuts)
  | executeSelected (he : e.IsProjection) (hc : ∀ s ∈ cuts, Step.pages s = true) :
    Ending paged (.select (some e) :: (cuts ++ [.execute terminal none]))
  | groups (hk : k.IsGroupKey) (he : e.IsGroupProjection) (takes : List Nat) :
    Ending false (.groupBy (some k) :: .select (some e) :: takes.map .take)

/-- A query of the language: some operations on documents, and an ending. -/
def Query.Supported (q : Query) : Prop :=
  ∃ first last, q.steps = first ++ last ∧ (∀ s ∈ first, s.OnDocuments) ∧
    Step.Ending (first.any Step.pages) last

namespace Criteria

theorem bounded_isOk_iff : (∃ c, bounded field k v = .ok c) ↔ v ≠ .null := by
  rw [bounded]
  cases v <;> simp [Json.isNull]

theorem compare_isOk_iff : (∃ c, compare field op v = .ok c) ↔ op.Compares v := by
  cases op with
  | eq | ne => simp [compare, Comparison.Compares]
  | gt | ge | lt | le => simp [compare, Comparison.Compares, bounded_isOk_iff]

end Criteria

namespace Expr

theorem isPredicate_compare_iff {left right : Expr} :
    (∃ c, compareCriteria names op left right = .ok c) ↔ (compare op left right).IsPredicate := by
  constructor
  · rintro ⟨c, h⟩
    unfold compareCriteria at h
    split at h
    · exact .compare (Criteria.compare_isOk_iff.1 ⟨c, h⟩)
    · exact .compareConstant (Comparison.compares_flip.1 (Criteria.compare_isOk_iff.1 ⟨c, h⟩))
    · cases h
  · intro h
    cases h with
    | compare hv => exact Criteria.compare_isOk_iff.2 hv
    | compareConstant hv => exact Criteria.compare_isOk_iff.2 (Comparison.compares_flip.2 hv)

theorem isPredicate_of_criteria {e : Expr} (h : e.criteria names = .ok c) : e.IsPredicate := by
  fun_induction criteria names e generalizing c with
  | case1 op left right => exact isPredicate_compare_iff.1 ⟨c, h⟩
  | case2 left right ihl ihr =>
    obtain ⟨l, hl, h⟩ := bind_eq_ok_iff.1 h
    obtain ⟨r, hr, -⟩ := bind_eq_ok_iff.1 h
    exact .and (ihl hl) (ihr hr)
  | case3 left right ihl ihr =>
    obtain ⟨l, hl, h⟩ := bind_eq_ok_iff.1 h
    obtain ⟨r, hr, -⟩ := bind_eq_ok_iff.1 h
    exact .or (ihl hl) (ihr hr)
  | case4 e ih =>
    obtain ⟨b, hb, -⟩ := bind_eq_ok_iff.1 h
    exact .not (ih hb)
  | case5 => exact .member
  | case6 => exact .constant
  | case7 => exact .startsWith
  | case8 => exact .regexp
  | case9 => cases h

theorem IsPredicate.criteria {e : Expr} (h : e.IsPredicate) (names : FieldNames) :
    ∃ c, e.criteria names = .ok c := by
  induction h with
  | member | constant | startsWith | regexp => exact ⟨_, rfl⟩
  | compare hv => exact isPredicate_compare_iff.2 (.compare hv)
  | compareConstant hv => exact isPredicate_compare_iff.2 (.compareConstant hv)
  | and _ _ ihl ihr =>
    obtain ⟨l, hl⟩ := ihl
    obtain ⟨r, hr⟩ := ihr
    exact ⟨_, bind_eq_ok_iff.2 ⟨l, hl, bind_eq_ok_iff.2 ⟨r, hr, rfl⟩⟩⟩
  | or _ _ ihl ihr =>
    obtain ⟨l, hl⟩ := ihl
    obtain ⟨r, hr⟩ := ihr
    exact ⟨_, bind_eq_ok_iff.2 ⟨l, hl, bind_eq_ok_iff.2 ⟨r, hr, rfl⟩⟩⟩
  | not _ ih =>
    obtain ⟨c, hc⟩ := ih
    exact ⟨_, bind_eq_ok_iff.2 ⟨c, hc, rfl⟩⟩

/-- The predicate of a terminal may be left out. -/
theorem mapM_criteria_isOk_iff {predicate : Option Expr} :
    (∃ cs, predicate.toList.mapM (criteria names) = .ok cs) ↔ ∀ e ∈ predicate, e.IsPredicate := by
  constructor
  · rintro ⟨cs, h⟩ e rfl
    rcases mapM_criteria_toList h with ⟨hn, -⟩ | ⟨e, c, he, hc, -⟩
    · cases hn
    · cases he
      exact isPredicate_of_criteria hc
  · intro h
    cases predicate with
    | none => exact ⟨[], rfl⟩
    | some e =>
      obtain ⟨c, hc⟩ := (h e rfl).criteria names
      exact ⟨[c], bind_eq_ok_iff.2 ⟨c, hc, rfl⟩⟩

end Expr

namespace Projection

theorem members_isOk_iff {columns : List (String × Expr)} :
    (∃ members, columns.mapM (fun (name, e) => do
        let f ← FieldNames.fieldOf names .select e
        return (name, f)) = Except.ok members) ↔ ∀ f ∈ columns, ∃ m, f.2 = .member m := by
  induction columns with
  | nil => simp [pure, Except.pure]
  | cons f rest ih =>
    obtain ⟨name, e⟩ := f
    rw [List.forall_mem_cons, ← ih]
    constructor
    · rintro ⟨members, h⟩
      rw [List.mapM_cons] at h
      obtain ⟨first, hf, h⟩ := bind_eq_ok_iff.1 h
      obtain ⟨tail, ht, -⟩ := bind_eq_ok_iff.1 h
      obtain ⟨field, he, -⟩ := bind_eq_ok_iff.1 hf
      obtain ⟨m, he, -⟩ := FieldNames.fieldOf_eq_ok_iff.1 he
      exact ⟨⟨m, he⟩, tail, ht⟩
    · rintro ⟨⟨m, rfl⟩, tail, ht⟩
      rw [List.mapM_cons]
      exact ⟨_, bind_eq_ok_iff.2 ⟨_, rfl, bind_eq_ok_iff.2 ⟨tail, ht, rfl⟩⟩⟩

theorem isOk_iff : (∃ p, ofExpr names e = .ok p) ↔ e.IsProjection := by
  constructor
  · rintro ⟨p, h⟩
    cases e with
    | member => exact .member
    | record columns =>
      obtain ⟨members, hm, -⟩ := bind_eq_ok_iff.1 h
      exact .record (members_isOk_iff.1 ⟨members, hm⟩)
    | constant | compare | and | or | not | startsWith | regexp | aggregate | groupKey => cases h
  · intro h
    cases h with
    | member => exact ⟨_, rfl⟩
    | record he =>
      obtain ⟨members, hm⟩ := members_isOk_iff.2 he
      exact ⟨_, bind_eq_ok_iff.2 ⟨members, hm, rfl⟩⟩

end Projection

namespace GroupedProjection

theorem facet_isOk_iff :
    (∃ f, facet names key a argument = .ok f) ↔ (Expr.aggregate a argument).IsColumn := by
  constructor
  · rintro ⟨f, h⟩
    cases argument with
    | none =>
      cases a with
      | count => exact .count
      | sum | average | min | max => cases h
    | some e =>
      cases a with
      | count =>
        obtain ⟨filter, hf, -⟩ := bind_eq_ok_iff.1 h
        rw [Option.mapM_some] at hf
        obtain ⟨c, hc, -⟩ := bind_eq_ok_iff.1 hf
        exact .countOf (Expr.isPredicate_of_criteria hc)
      | sum | average | min | max =>
        obtain ⟨field, hf, -⟩ := bind_eq_ok_iff.1 h
        obtain ⟨m, rfl, -⟩ := FieldNames.fieldOf_eq_ok_iff.1 hf
        exact .ofMember (by simp)
  · intro h
    cases h with
    | count => cases key <;> exact ⟨_, rfl⟩
    | countOf he =>
      obtain ⟨c, hc⟩ := he.criteria names
      have hf : (some _).mapM (Expr.criteria names) = Except.ok (some c) :=
        bind_eq_ok_iff.2 ⟨c, hc, rfl⟩
      cases key <;> exact ⟨_, bind_eq_ok_iff.2 ⟨_, hf, rfl⟩⟩
    | ofMember ha => cases a <;> cases key <;> first | exact absurd rfl ha | exact ⟨_, rfl⟩

theorem column_isOk_iff {facets : List Facet} :
    (∃ r, column names key facets name e = .ok r) ↔ e.IsColumn := by
  constructor
  · rintro ⟨r, h⟩
    cases e with
    | groupKey => exact .groupKey
    | aggregate a argument =>
      obtain ⟨f, hf, -⟩ := bind_eq_ok_iff.1 h
      exact facet_isOk_iff.1 ⟨f, hf⟩
    | member | constant | compare | and | or | not | startsWith | regexp | record => cases h
  · intro h
    cases e with
    | groupKey => exact ⟨_, rfl⟩
    | aggregate a argument =>
      obtain ⟨f, hf⟩ := facet_isOk_iff.2 h
      exact ⟨_, column_aggregate hf name⟩
    | member | constant | compare | and | or | not | startsWith | regexp | record => cases h

theorem columns_of_mem {facets : List Facet} {before : List String} (hn : name ∈ before)
    (rest : List (String × Expr)) :
    columns names key facets before ((name, e) :: rest) = .error (.duplicateMember name) := by
  rw [columns, if_pos hn]
  rfl

theorem columns_of_notMem {facets : List Facet} {before : List String} (hn : name ∉ before)
    (rest : List (String × Expr)) : columns names key facets before ((name, e) :: rest) =
      (column names key facets (some name) e >>= fun r =>
        columns names key r.1 (before ++ [name]) rest >>= fun t => .ok (t.1, r.2 :: t.2)) := by
  rw [columns, if_neg hn]
  rfl

/-- Columns are refused for a name that a column before them has, or for what one of them holds. -/
theorem columns_isOk_iff {facets : List Facet} {before : List String}
    {fields : List (String × Expr)} : (∃ r, columns names key facets before fields = .ok r) ↔
      (fields.map Prod.fst).Nodup ∧ ∀ f ∈ fields, f.1 ∉ before ∧ f.2.IsColumn := by
  induction fields generalizing facets before with
  | nil => simp [columns]
  | cons f rest ih =>
    obtain ⟨name, e⟩ := f
    rw [List.forall_mem_cons]
    by_cases hn : name ∈ before
    · simp [columns_of_mem hn, hn]
    · rw [columns_of_notMem hn, List.map_cons, List.nodup_cons]
      constructor
      · rintro ⟨r, h⟩
        obtain ⟨⟨middle, c⟩, hc, h⟩ := bind_eq_ok_iff.1 h
        obtain ⟨t, ht, -⟩ := bind_eq_ok_iff.1 h
        obtain ⟨hnd, hr⟩ := ih.1 ⟨t, ht⟩
        refine ⟨⟨?_, hnd⟩, ⟨hn, column_isOk_iff.1 ⟨_, hc⟩⟩, ?_⟩
        · intro hm
          obtain ⟨f, hf, rfl⟩ := List.mem_map.1 hm
          exact (hr f hf).1 (by simp)
        · intro f hf
          obtain ⟨hb, he⟩ := hr f hf
          exact ⟨fun hm => hb (List.mem_append_left _ hm), he⟩
      · rintro ⟨⟨hm, hnd⟩, ⟨-, he⟩, hr⟩
        obtain ⟨⟨middle, c⟩, hc⟩ := column_isOk_iff.2 he
        have hrest : ∀ f ∈ rest, f.1 ∉ before ++ [name] ∧ f.2.IsColumn := by
          intro f hf
          refine ⟨?_, (hr f hf).2⟩
          intro hb
          rcases List.mem_append.1 hb with hb | hb
          · exact (hr f hf).1 hb
          · exact hm (List.mem_map.2 ⟨f, hf, List.mem_singleton.1 hb⟩)
        obtain ⟨t, ht⟩ := ih.2 ⟨hnd, hrest⟩
        exact ⟨_, bind_eq_ok_iff.2 ⟨_, hc, bind_eq_ok_iff.2 ⟨t, ht, rfl⟩⟩⟩

theorem isOk_iff : (∃ p, ofExpr names key e = .ok p) ↔ e.IsGroupProjection := by
  constructor
  · rintro ⟨p, h⟩
    rcases ofExpr_cases h with ⟨fields, facets, cs, rfl, hc, -⟩ | ⟨-, facets, c, hc, -⟩
    · obtain ⟨hn, he⟩ := columns_isOk_iff.1 ⟨_, hc⟩
      exact .record hn fun f hf => (he f hf).2
    · exact .column (column_isOk_iff.1 ⟨_, hc⟩)
  · intro h
    cases h with
    | column he =>
      obtain ⟨r, hr⟩ := column_isOk_iff.2 he
      cases he <;> exact ⟨_, bind_eq_ok_iff.2 ⟨r, hr, rfl⟩⟩
    | record hn he =>
      have hc := fun f hf => (⟨List.not_mem_nil, he f hf⟩ : f.1 ∉ [] ∧ f.2.IsColumn)
      obtain ⟨r, hr⟩ := columns_isOk_iff.2 ⟨hn, hc⟩
      exact ⟨_, bind_eq_ok_iff.2 ⟨r, hr, rfl⟩⟩

end GroupedProjection

theorem Draft.groupKey_isOk_iff : (∃ key, groupKey names e = .ok key) ↔ e.IsGroupKey := by
  constructor
  · rintro ⟨key, h⟩
    cases e with
    | member => exact .member
    | constant => exact .constant
    | compare | and | or | not | startsWith | regexp | aggregate | groupKey | record => cases h
  · intro h
    cases h <;> exact ⟨_, rfl⟩

end SearchQuery
