import Mathlib.Data.List.Nodup
import Mathlib.Data.List.Perm.Subperm
import SearchQuery.Grouping
import SearchQuery.Proofs.Chain

/-!
Columns of grouped projections and the facets they read: no two facets of one name, and for each
aggregate a facet that computes what its own would.
-/

namespace SearchQuery

theorem exists_of_forall₂ {R : α → β → Prop} {i : Nat} (h : List.Forall₂ R xs ys)
    (hi : xs[i]? = some x) :
    ∃ y, ys[i]? = some y ∧ R x y := by
  induction h generalizing i with
  | nil => cases hi
  | cons hr _ ih =>
    cases i with
    | zero =>
      cases hi
      exact ⟨_, rfl, hr⟩
    | succ i => exact ih hi

theorem numbered_injective (base : String) (n : Nat) :
    Function.Injective fun i : Nat => base ++ "_" ++ toString (n + i) := by
  intro i j h
  have ht := (String.append_right_inj _).1 h
  rw [Nat.toString_eq_ofList_toDigits, Nat.toString_eq_ofList_toDigits, String.ofList_inj] at ht
  have hd := congrArg (Nat.ofDigitChars 10 · 0) ht
  simp only [Nat.ofDigitChars_toDigits (by decide : 1 < 10) (by decide : 10 ≤ 10)] at hd
  omega

/-- More names are tried than are taken. -/
theorem freeName_notMem (taken : List String) (base : String) : freeName taken base ∉ taken := by
  rw [freeName]
  split
  next =>
    cases hf : ((List.range (taken.length + 1)).map
        fun i => base ++ "_" ++ toString (taken.length + i)).find? (· ∉ taken) with
    | some name => simpa using List.find?_some hf
    | none =>
      have hsub := List.find?_eq_none.1 hf
      have hnd := List.nodup_range.map (numbered_injective base taken.length)
        (l := List.range (taken.length + 1))
      have hle := (hnd.subperm fun name hm => by simpa using hsub name hm).length_le
      rw [List.length_map, List.length_range] at hle
      omega
  next h => exact h

/-- The first facet computes what the second one does. -/
def FacetBody.StandsFor (g f : FacetBody) : Prop := g = f ∨ g.agrees f = true

namespace Facet

theorem addTo_of_find? {f g : Facet} (h : facets.find? (·.sharesResultWith f) = some g) :
    f.addTo facets = (facets, g.name) := by
  rw [addTo, h]

theorem addTo_of_none {f : Facet} (h : facets.find? (·.sharesResultWith f) = none) :
    f.addTo facets = (facets ++ [f.named (freeName (facets.map name) f.name)],
      freeName (facets.map name) f.name) := by
  rw [addTo, h]

theorem subset_addTo (f : Facet) (facets : List Facet) : facets ⊆ (f.addTo facets).1 := by
  cases h : facets.find? (·.sharesResultWith f) with
  | some g =>
    rw [addTo_of_find? h]
    exact List.Subset.refl _
  | none =>
    rw [addTo_of_none h]
    exact List.subset_append_left ..

theorem nodup_addTo (f : Facet) {facets : List Facet} (hn : (facets.map name).Nodup) :
    ((f.addTo facets).1.map name).Nodup := by
  cases h : facets.find? (·.sharesResultWith f) with
  | some g => rwa [addTo_of_find? h]
  | none =>
    rw [addTo_of_none h, List.map_append, List.nodup_append]
    refine ⟨hn, List.nodup_singleton _, ?_⟩
    intro n hm m hs
    cases List.mem_singleton.1 hs
    exact fun he => freeName_notMem _ _ (he ▸ hm)

/-- The name that is given is that of a facet which can stand for the one that was added. -/
theorem exists_standsFor_addTo (f : Facet) (facets : List Facet) :
    ∃ g ∈ (f.addTo facets).1, g.name = (f.addTo facets).2 ∧ g.body.StandsFor f.body := by
  cases h : facets.find? (·.sharesResultWith f) with
  | some g =>
    rw [addTo_of_find? h]
    have hs : g.sharesResultWith f = true := by simpa using List.find?_some h
    exact ⟨g, List.mem_of_find?_eq_some h, rfl, .inr hs⟩
  | none =>
    rw [addTo_of_none h]
    exact ⟨_, List.mem_append_right _ (.head _), rfl, .inl rfl⟩

theorem mem_addTo {f g : Facet} (h : g ∈ (f.addTo facets).1) : g ∈ facets ∨ g.body = f.body := by
  cases hs : facets.find? (·.sharesResultWith f) with
  | some g =>
    rw [addTo_of_find? hs] at h
    exact .inl h
  | none =>
    rw [addTo_of_none hs] at h
    rcases List.mem_append.1 h with hm | hm
    · exact .inl hm
    · cases List.mem_singleton.1 hm
      exact .inr rfl

end Facet

/-- The expressions of the columns of a projection of groups. -/
def Expr.cells : Expr → List Expr
  | .record fields => fields.map Prod.snd
  | e => [e]

theorem Expr.cells_of_ne_record {e : Expr} (h : ∀ fields, e = .record fields → False) :
    e.cells = [e] := by
  rw [cells]
  exact h

namespace GroupedProjection

variable {facets facets' : List Facet}

/-- A body that one of the aggregates asks for. -/
def Requested (names : FieldNames) (key : Option String) (cells : List Expr) (b : FacetBody) :
    Prop :=
  ∃ a argument f, .aggregate a argument ∈ cells ∧ facet names key a argument = .ok f ∧ b = f.body

/-- What the columns of some cells make of the facets before them. -/
structure Extends (names : FieldNames) (key : Option String) (cells : List Expr)
    (before after : List Facet) : Prop where
  subset : before ⊆ after
  nodup : (before.map Facet.name).Nodup → (after.map Facet.name).Nodup
  requested : ∀ g ∈ after, g ∈ before ∨ Requested names key cells g.body

/-- What is read in the place of an expression: the key, or a facet that stands for its own. -/
inductive Reads (names : FieldNames) (key : Option String) (facets : List Facet) :
    Expr → Cell → Prop
  | groupKey : Reads names key facets .groupKey .key
  | aggregate (hf : facet names key a argument = .ok f) (hg : g ∈ facets)
    (hs : g.body.StandsFor f.body) :
    Reads names key facets (.aggregate a argument) (.statistic g.name (statistic a))

theorem Requested.mono (h : Requested names key cells b) (hs : cells ⊆ cells') :
    Requested names key cells' b := by
  obtain ⟨a, argument, f, hm, hf, hb⟩ := h
  exact ⟨a, argument, f, hs hm, hf, hb⟩

theorem Extends.refl (names : FieldNames) (key : Option String) (cells : List Expr)
    (facets : List Facet) : Extends names key cells facets facets :=
  ⟨List.Subset.refl _, id, fun _ => .inl⟩

theorem Extends.trans (hf : Extends names key first facets middle)
    (hr : Extends names key rest middle after) :
    Extends names key (first ++ rest) facets after := by
  refine ⟨List.Subset.trans hf.subset hr.subset, hr.nodup ∘ hf.nodup, fun g hg => ?_⟩
  rcases hr.requested g hg with hm | hq
  · rcases hf.requested g hm with hb | hq
    · exact .inl hb
    · exact .inr (hq.mono (List.subset_append_left ..))
  · exact .inr (hq.mono (List.subset_append_right ..))

theorem Reads.mono (h : Reads names key facets e c) (hs : facets ⊆ facets') :
    Reads names key facets' e c := by
  cases h with
  | groupKey => exact .groupKey
  | aggregate hf hg hb => exact .aggregate hf (hs hg) hb

theorem extends_addTo (ha : .aggregate a argument ∈ cells)
    (hf : facet names key a argument = .ok f) :
    Extends names key cells facets (f.addTo facets).1 := by
  refine ⟨f.subset_addTo facets, f.nodup_addTo, fun g hg => ?_⟩
  rcases Facet.mem_addTo hg with hm | hb
  · exact .inl hm
  · exact .inr ⟨a, argument, f, ha, hf, hb⟩

theorem column_aggregate (hf : facet names key a argument = .ok f) (name : Option String) :
    column names key facets name (.aggregate a argument) =
      .ok ((f.addTo facets).1, ⟨name, .statistic (f.addTo facets).2 (statistic a)⟩) := by
  rw [column, hf]
  rfl

theorem column_spec (h : column names key facets name e = .ok (facets', c)) :
    Extends names key [e] facets facets' ∧ c.name = name ∧ Reads names key facets' e c.cell := by
  cases e with
  | groupKey =>
    cases h
    exact ⟨.refl .., rfl, .groupKey⟩
  | aggregate a argument =>
    obtain ⟨f, hf, _⟩ := bind_eq_ok_iff.1 h
    rw [column_aggregate hf] at h
    cases h
    obtain ⟨g, hg, hn, hs⟩ := f.exists_standsFor_addTo facets
    refine ⟨extends_addTo (.head _) hf, rfl, ?_⟩
    rw [← hn]
    exact .aggregate hf hg hs
  | member | constant | compare | and | or | not | startsWith | regexp | record => cases h

theorem columns_spec (h : columns names key facets before fields = .ok (facets', cs)) :
    Extends names key (fields.map Prod.snd) facets facets' ∧
      (before.Nodup → (before ++ fields.map Prod.fst).Nodup) ∧
      List.Forall₂ (fun m c => c.name = some m.1 ∧ Reads names key facets' m.2 c.cell)
        fields cs := by
  induction fields generalizing facets before cs with
  | nil =>
    cases h
    exact ⟨.refl .., by simp, .nil⟩
  | cons m rest ih =>
    obtain ⟨name, e⟩ := m
    rw [columns] at h
    split at h
    · cases h
    next hb =>
      obtain ⟨⟨middle, c⟩, hc, h⟩ := bind_eq_ok_iff.1 h
      obtain ⟨⟨after, cs⟩, hcs, h⟩ := bind_eq_ok_iff.1 h
      cases h
      obtain ⟨hx, hn, hr⟩ := column_spec hc
      obtain ⟨hxs, hd, hrs⟩ := ih hcs
      refine ⟨hx.trans hxs, fun hnd => ?_, .cons ⟨hn, hr.mono hxs.subset⟩ hrs⟩
      simpa using hd (List.nodup_append.2 ⟨hnd, List.nodup_singleton _, by
        intro n hm m hs
        cases List.mem_singleton.1 hs
        exact fun he => hb (he ▸ hm)⟩)

theorem withGroups_eq (key : Option String) (facets : List Facet) :
    withGroups key facets = facets ∨
      facets = [] ∧ ∃ k, key = some k ∧ withGroups key facets = [counting k none] := by
  cases key with
  | none => exact .inl rfl
  | some k =>
    cases facets with
    | nil => exact .inr ⟨rfl, k, rfl, rfl⟩
    | cons => exact .inl rfl

theorem withGroups_ne_nil (k : String) (facets : List Facet) : withGroups (some k) facets ≠ [] := by
  cases facets <;> simp [withGroups]

/-- A grouped projection has the facets that its cells ask for, or one that lists the groups. -/
structure Lowers (names : FieldNames) (key : Option String) (e : Expr) (p : GroupedProjection) :
    Prop where
  nodup : (p.facets.map Facet.name).Nodup
  requested : ∀ g ∈ p.facets,
    Requested names key e.cells g.body ∨ ∃ k, key = some k ∧ g = counting k none
  reads : List.Forall₂ (Reads names key p.facets) e.cells (p.rows.columns.map Column.cell)
  grouped : p.rows.grouped = key.isSome
  bucketFacets : p.rows.bucketFacets = (p.facets.filter (·.body.hasBuckets)).map Facet.name
  nonempty : ∀ k, key = some k → p.facets ≠ []

theorem lowers_ofColumns (hx : Extends names key e.cells [] facets)
    (hr : List.Forall₂ (Reads names key facets) e.cells (cs.map Column.cell)) (type : ValueType) :
    Lowers names key e (ofColumns key type facets cs) := by
  have hnonempty : ∀ k, key = some k → withGroups key facets ≠ [] := by
    rintro k rfl
    exact withGroups_ne_nil k facets
  rcases withGroups_eq key facets with hw | ⟨rfl, k, rfl, hw⟩
  · refine ⟨?_, fun g hg => ?_, ?_, rfl, rfl, hnonempty⟩
    · rw [ofColumns, hw]
      exact hx.nodup List.nodup_nil
    · rw [ofColumns, hw] at hg
      rcases hx.requested g hg with hm | hq
      · cases hm
      · exact .inl hq
    · rw [ofColumns, hw]
      exact hr
  · refine ⟨?_, fun g hg => ?_, ?_, rfl, rfl, hnonempty⟩
    · rw [ofColumns, hw]
      exact List.nodup_singleton _
    · rw [ofColumns, hw] at hg
      exact .inr ⟨k, rfl, List.mem_singleton.1 hg⟩
    · exact hr.imp fun _ _ h => h.mono (List.nil_subset _)

theorem ofExpr_cases (h : ofExpr names key e = .ok p) :
    (∃ fields facets cs, e = .record fields ∧ columns names key [] [] fields = .ok (facets, cs) ∧
        p = ofColumns key (.record (fields.map Prod.fst)) facets cs) ∨
      ((∀ fields, e ≠ .record fields) ∧ ∃ facets c,
        column names key [] none e = .ok (facets, c) ∧
          p = ofColumns key (valueType e) facets [c]) := by
  unfold ofExpr at h
  split at h
  next fields =>
    obtain ⟨⟨facets, cs⟩, hc, h⟩ := bind_eq_ok_iff.1 h
    cases h
    exact .inl ⟨fields, facets, cs, rfl, hc, rfl⟩
  next hne =>
    obtain ⟨⟨facets, c⟩, hc, h⟩ := bind_eq_ok_iff.1 h
    cases h
    exact .inr ⟨hne, facets, c, hc, rfl⟩

/-- The facets before the one that lists the groups is added, if it is. -/
theorem exists_ofColumns (h : ofExpr names key e = .ok p) :
    ∃ type facets cs, p = ofColumns key type facets cs ∧ Extends names key e.cells [] facets ∧
      List.Forall₂ (Reads names key facets) e.cells (cs.map Column.cell) := by
  rcases ofExpr_cases h with ⟨fields, facets, cs, rfl, hc, rfl⟩ | ⟨hne, facets, c, hc, rfl⟩
  · obtain ⟨hx, -, hr⟩ := columns_spec hc
    refine ⟨_, facets, cs, rfl, hx, ?_⟩
    rw [Expr.cells, List.forall₂_map_left_iff, List.forall₂_map_right_iff]
    exact hr.imp fun _ _ h => h.2
  · obtain ⟨hx, -, hr⟩ := column_spec hc
    have hcells := Expr.cells_of_ne_record hne
    refine ⟨_, facets, [c], rfl, hcells ▸ hx, ?_⟩
    rw [hcells]
    exact .cons hr .nil

theorem lowers_ofExpr (h : ofExpr names key e = .ok p) : Lowers names key e p := by
  obtain ⟨type, facets, cs, rfl, hx, hr⟩ := exists_ofColumns h
  exact lowers_ofColumns hx hr type

end GroupedProjection

namespace Draft

/-- The groups of a draft, when it has some, are made of a projection. -/
def Lowered (names : FieldNames) (d : Draft) : Prop :=
  ∀ g limit, d.stage = .grouped g limit → ∃ key e, GroupedProjection.ofExpr names key e = .ok g

theorem Next.lowered (h : Next names d s d') (hd : d.Lowered names) : d'.Lowered names := by
  cases h with
  | filter | query | queryString | orderBy | orderByScore | skip | take => exact hd
  | groupBy | select | execute | executeSelected => rintro g limit ⟨⟩
  | selectGroups _ hp =>
    rintro g limit ⟨⟩
    exact ⟨_, _, hp⟩
  | takeGroups hg =>
    rintro g limit ⟨⟩
    exact hd _ _ hg

theorem Runs.lowered (h : Runs names d steps d') (hd : d.Lowered names) : d'.Lowered names :=
  h.keeps Next.lowered hd

theorem lowered_empty (names : FieldNames) : ({} : Draft).Lowered names := by
  rintro g limit ⟨⟩

end Draft

namespace FacetBody

/-- The body that is requested when rows may be limited. -/
def limitedTo (limit : Option Nat) (b : FacetBody) : FacetBody := (limit.map b.limited).getD b

theorem filter?_limitedTo (limit : Option Nat) (b : FacetBody) :
    (b.limitedTo limit).filter? = b.filter? := by
  cases limit <;> cases b <;> rfl

theorem hasBuckets_limitedTo (limit : Option Nat) (b : FacetBody) :
    (b.limitedTo limit).hasBuckets = b.hasBuckets := by
  cases limit <;> cases b <;> rfl

end FacetBody

namespace GroupedProjection

def limitedTo (limit : Option Nat) (p : GroupedProjection) : GroupedProjection :=
  (limit.map p.limited).getD p

theorem facets_limitedTo (limit : Option Nat) (p : GroupedProjection) :
    (p.limitedTo limit).facets = p.facets.map fun f => ⟨f.name, f.body.limitedTo limit⟩ := by
  cases limit with
  | none => exact (List.map_id' p.facets).symm
  | some n => rfl

theorem names_limitedTo (limit : Option Nat) (p : GroupedProjection) :
    (p.limitedTo limit).facets.map Facet.name = p.facets.map Facet.name := by
  rw [facets_limitedTo, List.map_map]
  rfl

theorem rows_limitedTo (limit : Option Nat) (p : GroupedProjection) :
    (p.limitedTo limit).rows = p.rows := by
  cases limit <;> rfl

/-- Terms are read from the facets with buckets that are requested. -/
theorem Lowers.bucketFacets_limitedTo (h : Lowers names key e p) (limit : Option Nat) :
    p.rows.bucketFacets =
      ((p.limitedTo limit).facets.filter (·.body.hasBuckets)).map Facet.name := by
  rw [h.bucketFacets, facets_limitedTo, List.filter_map, List.map_map]
  simp only [Function.comp_def, FacetBody.hasBuckets_limitedTo]

end GroupedProjection

end SearchQuery
