import SearchQuery.Proofs.Sharing

/-!
Renaming of fields. Criteria and facets are put together by comparing fields, so a renaming that
confuses no two of them passes through.
-/

namespace SearchQuery

/-- Naming members anew is renaming their fields. -/
structure FieldNames.Renames (names names' : FieldNames) (ρ : String → String) : Prop where
  injective : Function.Injective ρ
  field : ∀ m, names'.field m = ρ (names.field m)
  type : names'.naming.type = names.naming.type

/-- The error with the field that it mentions renamed; most errors mention none. -/
def Error.renamed (ρ : String → String) : Error → Error
  | .unsupported (.orderAgainstNull field) => .unsupported (.orderAgainstNull (ρ field))
  | e => e

/-- Two outcomes that differ by a renaming: related results, or errors of one cause. -/
inductive Alike (ρ : String → String) (R : α → β → Prop) : Except Error α → Except Error β → Prop
  | ok (h : R a b) : Alike ρ R (.ok a) (.ok b)
  | error (e : Error) : Alike ρ R (.error e) (.error (e.renamed ρ))

theorem Alike.bind {x : Except Error α} {y : Except Error β} {f : α → Except Error γ}
    {g : β → Except Error δ} (h : Alike ρ R x y) (hf : ∀ a b, R a b → Alike ρ S (f a) (g b)) :
    Alike ρ S (x >>= f) (y >>= g) := by
  cases h with
  | ok hr => exact hf _ _ hr
  | error e => exact .error e

theorem Alike.of_ok {y : Except Error β} (h : Alike ρ R (.ok a) y) : ∃ b, y = .ok b ∧ R a b := by
  cases h with
  | ok hr => exact ⟨_, rfl, hr⟩

theorem Alike.of_error {R : α → β → Prop} (h : Alike ρ R (.error e) y) :
    y = .error (e.renamed ρ) := by
  cases h with
  | error => rfl

/-- A relation of results may use that they are results. -/
theorem Alike.imp_ok {x : Except Error α} {y : Except Error β} (h : Alike ρ R x y)
    (hs : ∀ a b, x = .ok a → y = .ok b → R a b → S a b) : Alike ρ S x y := by
  cases h with
  | ok hr => exact .ok (hs _ _ rfl rfl hr)
  | error e => exact .error e

theorem Alike.mapM {f : α → Except Error β} {g : α → Except Error γ} {r : β → γ} (xs : List α)
    (h : ∀ x, Alike ρ (fun b c => c = r b) (f x) (g x)) :
    Alike ρ (fun bs cs => cs = bs.map r) (xs.mapM f) (xs.mapM g) := by
  induction xs with
  | nil => exact .ok rfl
  | cons x rest ih =>
    rw [List.mapM_cons, List.mapM_cons]
    apply (h x).bind
    rintro b _ rfl
    apply ih.bind
    rintro bs _ rfl
    exact .ok rfl

theorem Argument.alike_ofOption (ρ : String → String) (a : Argument) (o : Option α) :
    Alike ρ Eq (a.ofOption o) (a.ofOption o) := by
  cases o with
  | none => exact .error _
  | some v => exact .ok rfl

theorem FieldNames.Renames.alike_fieldOf {names names' : FieldNames} (hn : names.Renames names' ρ)
    (place : MemberPlace) (e : Expr) :
    Alike ρ (fun f f' => f' = ρ f) (names.fieldOf place e) (names'.fieldOf place e) := by
  cases e with
  | member m => exact .ok (hn.field m)
  | _ => exact .error _

namespace Criteria

mutual

def renamed (ρ : String → String) : Criteria → Criteria
  | matchAll => matchAll
  | term field v => term (ρ field) v
  | terms field vs => terms (ρ field) vs
  | range field bounds => range (ρ field) bounds
  | present field => present (ρ field)
  | missing field => missing (ρ field)
  | startsWith field text => startsWith (ρ field) text
  | regexp field pattern => regexp (ρ field) pattern
  | queryString text => queryString text
  | bool must should mustNot =>
    bool (renamedAll ρ must) (renamedAll ρ should) (renamedAll ρ mustNot)

def renamedAll (ρ : String → String) : List Criteria → List Criteria
  | [] => []
  | c :: rest => renamed ρ c :: renamedAll ρ rest

end

theorem renamedAll_eq_map (ρ : String → String) (cs : List Criteria) :
    renamedAll ρ cs = cs.map (renamed ρ) := by
  induction cs with
  | nil => rfl
  | cons c rest ih => rw [renamedAll, ih, List.map_cons]

theorem renamed_bool (ρ : String → String) (must should mustNot : List Criteria) :
    (bool must should mustNot).renamed ρ = bool (must.map (renamed ρ)) (should.map (renamed ρ))
      (mustNot.map (renamed ρ)) := by
  simp only [renamed, renamedAll_eq_map]

variable {ρ : String → String}

theorem map_insertRange (hρ : Function.Injective ρ) (field : String) (bounds : List Bound)
    (must : List Criteria) : (insertRange field bounds must).map (renamed ρ) =
      insertRange (ρ field) bounds (must.map (renamed ρ)) := by
  fun_induction insertRange field bounds must with
  | case1 => rfl
  | case2 existing rest merged hm => simp [insertRange, renamed, hm]
  | case3 existing rest hm ih => simp [insertRange, renamed, hm, ih]
  | case4 f existing rest hne ih => simp [insertRange, renamed, hρ.eq_iff, hne, ih]
  | case5 c rest hne ih =>
    cases c with
    | range f existing => exact absurd rfl (hne f existing)
    | _ => simp [insertRange, renamed, ih]

theorem map_insertConjunct (hρ : Function.Injective ρ) (must : List Criteria) (c : Criteria) :
    (insertConjunct must c).map (renamed ρ) =
      insertConjunct (must.map (renamed ρ)) (c.renamed ρ) := by
  cases c with
  | range field bounds => exact map_insertRange hρ field bounds must
  | _ => exact List.map_append

theorem map_foldl_insertConjunct (hρ : Function.Injective ρ) (must cs : List Criteria) :
    (cs.foldl insertConjunct must).map (renamed ρ) =
      (cs.map (renamed ρ)).foldl insertConjunct (must.map (renamed ρ)) := by
  induction cs generalizing must with
  | nil => rfl
  | cons c rest ih =>
    rw [List.foldl_cons, ih, map_insertConjunct hρ, List.map_cons, List.foldl_cons]

theorem conjuncts_renamed (c : Criteria) :
    (c.renamed ρ).conjuncts = c.conjuncts.map (renamed ρ) := by
  cases c with
  | bool must should mustNot =>
    rw [renamed_bool]
    cases should <;> cases mustNot <;> simp [conjuncts, renamed_bool]
  | _ => rfl

theorem renamed_all (hρ : Function.Injective ρ) (cs : List Criteria) :
    (all cs).renamed ρ = all (cs.map (renamed ρ)) := by
  have hparts : (cs.map (renamed ρ)).flatMap conjuncts =
      (cs.flatMap conjuncts).map (renamed ρ) := by
    simp only [List.flatMap_map, List.map_flatMap, conjuncts_renamed]
  have hall := map_foldl_insertConjunct hρ [] (cs.flatMap conjuncts)
  rw [List.map_nil] at hall
  rw [all, all, hparts, ← hall]
  cases (cs.flatMap conjuncts).foldl insertConjunct [] with
  | nil => rfl
  | cons c rest =>
    cases rest with
    | nil => rfl
    | cons d rest => exact renamed_bool ρ (c :: d :: rest) [] []

theorem equality?_renamed (c : Criteria) :
    (c.renamed ρ).equality? = c.equality?.map fun test => (ρ test.1, test.2) := by
  cases c <;> rfl

theorem map_insertEquality (hρ : Function.Injective ρ) (c : Criteria) (field : String)
    (values : List Json) (should : List Criteria) :
    (insertEquality c field values should).map (renamed ρ) =
      insertEquality (c.renamed ρ) (ρ field) values (should.map (renamed ρ)) := by
  fun_induction insertEquality c field values should with
  | case1 => rfl
  | case2 d rest existing heq => simp [insertEquality, equality?_renamed, heq, renamed]
  | case3 d rest f existing heq hne ih =>
    simp [insertEquality, equality?_renamed, heq, hρ.eq_iff, hne, ih]
  | case4 d rest heq ih => simp [insertEquality, equality?_renamed, heq, ih]

theorem map_insertDisjunct (hρ : Function.Injective ρ) (should : List Criteria) (c : Criteria) :
    (insertDisjunct should c).map (renamed ρ) =
      insertDisjunct (should.map (renamed ρ)) (c.renamed ρ) := by
  rw [insertDisjunct, insertDisjunct, equality?_renamed]
  cases c.equality? with
  | none => exact List.map_append
  | some test => exact map_insertEquality hρ c test.1 test.2 should

theorem map_foldl_insertDisjunct (hρ : Function.Injective ρ) (should cs : List Criteria) :
    (cs.foldl insertDisjunct should).map (renamed ρ) =
      (cs.map (renamed ρ)).foldl insertDisjunct (should.map (renamed ρ)) := by
  induction cs generalizing should with
  | nil => rfl
  | cons c rest ih =>
    rw [List.foldl_cons, ih, map_insertDisjunct hρ, List.map_cons, List.foldl_cons]

theorem disjuncts_renamed (c : Criteria) :
    (c.renamed ρ).disjuncts = c.disjuncts.map (renamed ρ) := by
  cases c with
  | bool must should mustNot =>
    rw [renamed_bool]
    cases must <;> cases mustNot <;> simp [disjuncts, renamed_bool]
  | _ => rfl

theorem renamed_any (hρ : Function.Injective ρ) (cs : List Criteria) :
    (any cs).renamed ρ = any (cs.map (renamed ρ)) := by
  have hparts : (cs.map (renamed ρ)).flatMap disjuncts =
      (cs.flatMap disjuncts).map (renamed ρ) := by
    simp only [List.flatMap_map, List.map_flatMap, disjuncts_renamed]
  have hany := map_foldl_insertDisjunct hρ [] (cs.flatMap disjuncts)
  rw [List.map_nil] at hany
  rw [any, any, hparts, ← hany]
  cases (cs.flatMap disjuncts).foldl insertDisjunct [] with
  | nil => rfl
  | cons c rest =>
    cases rest with
    | nil => rfl
    | cons d rest => exact renamed_bool ρ [] (c :: d :: rest) []

theorem renamed_negate (c : Criteria) : c.negate.renamed ρ = (c.renamed ρ).negate := by
  cases c with
  | bool must should mustNot =>
    rw [renamed_bool]
    match must, should, mustNot with
    | [], [], [c] => rfl
    | [], [], [] => rfl
    | [], [], _ :: _ :: _ | [], _ :: _, _ | _ :: _, _, _ => simp [negate, renamed_bool]
  | _ => rfl

/-- The conjunction is left out on both sides or on none. -/
theorem all?_map_renamed (hρ : Function.Injective ρ) (cs : List Criteria) :
    all? (cs.map (renamed ρ)) = (all? cs).map (renamed ρ) := by
  rw [all?, all?, ← renamed_all hρ]
  cases all cs <;> rfl

theorem sameAll_map_renamed {as bs : List Criteria}
    (ih : ∀ a ∈ as, ∀ b : Criteria, same (a.renamed ρ) (b.renamed ρ) = same a b) :
    sameAll (as.map (renamed ρ)) (bs.map (renamed ρ)) = sameAll as bs := by
  induction as generalizing bs with
  | nil => cases bs <;> rfl
  | cons a as ihas =>
    rw [List.forall_mem_cons] at ih
    cases bs with
    | nil => rfl
    | cons b bs => simp only [List.map_cons, sameAll, ih.1, ihas ih.2]

theorem same_renamed (hρ : Function.Injective ρ) (c d : Criteria) :
    same (c.renamed ρ) (d.renamed ρ) = same c d := by
  induction c generalizing d with
  | bool must should mustNot ihm ihs ihn =>
    cases d with
    | bool must' should' mustNot' =>
      rw [renamed_bool, renamed_bool, same, same, sameAll_map_renamed ihm, sameAll_map_renamed ihs,
        sameAll_map_renamed ihn]
    | _ => rfl
  | _ => cases d <;> simp [same, renamed, hρ.eq_iff]

theorem alike_bounded (ρ : String → String) (field : String) (k : BoundKind) (v : Json) :
    Alike ρ (fun c c' => c' = c.renamed ρ) (bounded field k v) (bounded (ρ field) k v) := by
  rw [bounded, bounded]
  split
  · exact .error _
  · exact .ok rfl

theorem alike_compare (ρ : String → String) (field : String) (op : Comparison) (v : Json) :
    Alike ρ (fun c c' => c' = c.renamed ρ) (compare field op v) (compare (ρ field) op v) := by
  cases op with
  | eq =>
    apply Alike.ok
    split <;> rfl
  | ne =>
    apply Alike.ok
    split <;> rfl
  | gt | ge | lt | le => exact alike_bounded ρ field _ v

end Criteria

namespace Expr

variable {names names' : FieldNames} {ρ : String → String}

theorem alike_compareCriteria (hn : names.Renames names' ρ) (op : Comparison) (left right : Expr) :
    Alike ρ (fun c c' => c' = c.renamed ρ) (compareCriteria names op left right)
      (compareCriteria names' op left right) := by
  unfold compareCriteria
  split
  · rw [hn.field]
    exact Criteria.alike_compare ..
  · rw [hn.field]
    exact Criteria.alike_compare ..
  · exact .error _

/-- The criteria of a predicate name its members and nothing else. -/
theorem alike_criteria (hn : names.Renames names' ρ) (e : Expr) :
    Alike ρ (fun c c' => c' = c.renamed ρ) (e.criteria names) (e.criteria names') := by
  fun_induction criteria names e with
  | case1 op left right =>
    rw [criteria]
    exact alike_compareCriteria hn op left right
  | case2 left right ihl ihr =>
    rw [criteria]
    refine ihl.bind fun l l' hl => ihr.bind fun r r' hr => .ok ?_
    rw [hl, hr]
    exact (Criteria.renamed_all hn.injective [l, r]).symm
  | case3 left right ihl ihr =>
    rw [criteria]
    refine ihl.bind fun l l' hl => ihr.bind fun r r' hr => .ok ?_
    rw [hl, hr]
    exact (Criteria.renamed_any hn.injective [l, r]).symm
  | case4 e ih =>
    rw [criteria]
    refine ih.bind fun c c' hc => .ok ?_
    rw [hc]
    exact (Criteria.renamed_negate c).symm
  | case5 m =>
    rw [criteria, hn.field]
    exact .ok rfl
  | case6 b => cases b <;> exact .ok rfl
  | case7 m text =>
    rw [criteria, hn.field]
    exact .ok rfl
  | case8 m pattern =>
    rw [criteria, hn.field]
    exact .ok rfl
  | case9 e =>
    rw [criteria]
    · exact .error _
    all_goals assumption

end Expr

namespace FacetBody

def renamed (ρ : String → String) : FacetBody → FacetBody
  | terms fields f size => terms (fields.map ρ) (f.map (Criteria.renamed ρ)) size
  | termsStats key value f size => termsStats (ρ key) (ρ value) (f.map (Criteria.renamed ρ)) size
  | statistical fields f => statistical (fields.map ρ) (f.map (Criteria.renamed ρ))
  | filter c => filter (c.renamed ρ)

variable {ρ : String → String}

theorem beq_map_renamed (hρ : Function.Injective ρ) (f g : Option Criteria) :
    (f.map (Criteria.renamed ρ) == g.map (Criteria.renamed ρ)) = (f == g) := by
  cases f with
  | none => cases g <;> rfl
  | some c =>
    cases g with
    | none => rfl
    | some d => exact Criteria.same_renamed hρ c d

theorem agrees_renamed (hρ : Function.Injective ρ) (b c : FacetBody) :
    (b.renamed ρ).agrees (c.renamed ρ) = b.agrees c := by
  cases b with
  | filter b =>
    cases c with
    | filter c => exact Criteria.same_renamed hρ b c
    | _ => rfl
  | _ =>
    cases c <;> simp [renamed, agrees, hρ.eq_iff, hρ.list_map.eq_iff, beq_map_renamed hρ]

theorem hasBuckets_renamed (b : FacetBody) : (b.renamed ρ).hasBuckets = b.hasBuckets := by
  cases b <;> rfl

theorem limited_renamed (n : Nat) (b : FacetBody) :
    (b.renamed ρ).limited n = (b.limited n).renamed ρ := by
  cases b <;> rfl

end FacetBody

end SearchQuery
