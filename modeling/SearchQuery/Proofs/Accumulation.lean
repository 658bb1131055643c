import SearchQuery.Proofs.Columns
import SearchQuery.Proofs.Equality

/-!
Facets that are added one after another. No two of them have one name or could share one result,
and the name that an addition gives remains that of the facet which stands for the added one.
-/

namespace SearchQuery

/-- The base name when it is not taken; else the numbers are tried in turn, from the number of taken
names on, and the first that makes a name which is not taken ends the search. -/
def IsFreeName (taken : List String) (base name : String) : Prop :=
  base ∉ taken ∧ name = base ∨
    base ∈ taken ∧ ∃ n, taken.length ≤ n ∧ name = base ++ "_" ++ toString n ∧ name ∉ taken ∧
      ∀ m, taken.length ≤ m → m < n → base ++ "_" ++ toString m ∈ taken

theorem isFreeName_freeName (taken : List String) (base : String) :
    IsFreeName taken base (freeName taken base) := by
  by_cases hb : base ∈ taken
  · have hfree := freeName_notMem taken base
    rw [freeName, if_pos hb, List.find?_map] at hfree ⊢
    cases hf : (List.range (taken.length + 1)).find? ((fun name => decide (name ∉ taken)) ∘
        fun i => base ++ "_" ++ toString (taken.length + i)) with
    | none =>
      rw [hf] at hfree
      exact absurd hb hfree
    | some i =>
      rw [hf] at hfree
      have hbefore := (List.find?_range_eq_some.1 hf).2.2
      refine .inr ⟨hb, taken.length + i, by omega, rfl, hfree, ?_⟩
      intro m hm hlt
      have ht := hbefore (m - taken.length) (by omega)
      have he : taken.length + (m - taken.length) = m := by omega
      simpa [he] using ht
  · rw [freeName, if_neg hb]
    exact .inl ⟨hb, rfl⟩

namespace Facet

variable {facets : List Facet}

/-- The facets after some more were added. -/
def addAll (facets fs : List Facet) : List Facet :=
  fs.foldl (fun facets f => (f.addTo facets).1) facets

/-- The facets without those that can share the result of one before them. -/
def firstAsked : List Facet → List Facet
  | [] => []
  | f :: rest => f :: (firstAsked rest).filter fun g => !f.sharesResultWith g

/-- One facet alone can stand for `f`, and its result has the name. -/
def KnownAs (f : Facet) (facets : List Facet) (name : String) : Prop :=
  ∃ g, facets.filter (·.sharesResultWith f) = [g] ∧ g.name = name

/-- What additions keep: facets have names and results of their own. -/
structure Apart (facets : List Facet) : Prop where
  names : (facets.map name).Nodup
  results : facets.Pairwise fun g h => g.sharesResultWith h = false
  settled : ∀ g ∈ facets, g.body.Settled

theorem apart_nil : Apart [] := ⟨List.nodup_nil, .nil, by simp⟩

theorem sharesResultWith_symm {f g : Facet} (hf : f.body.Settled) (hg : g.body.Settled)
    (h : f.sharesResultWith g = true) : g.sharesResultWith f = true :=
  FacetBody.agrees_symm hf hg h

theorem sharesResultWith_trans {f g k : Facet} (hfg : f.sharesResultWith g = true)
    (hgk : g.sharesResultWith k = true) : f.sharesResultWith k = true :=
  FacetBody.agrees_trans hfg hgk

theorem find?_eq_none_of_any {f : Facet} (h : facets.any (·.sharesResultWith f) = false) :
    facets.find? (·.sharesResultWith f) = none := by
  rw [List.find?_eq_none]
  intro g hg
  rw [List.any_eq_false] at h
  exact h g hg

theorem exists_find?_of_any {f : Facet} (h : facets.any (·.sharesResultWith f) = true) :
    ∃ g, facets.find? (·.sharesResultWith f) = some g := by
  rw [← Option.isSome_iff_exists, List.find?_isSome]
  exact List.any_eq_true.1 h

/-- An addition leaves the facets before it as they are. -/
theorem prefix_addTo (f : Facet) (facets : List Facet) : facets <+: (f.addTo facets).1 := by
  cases h : facets.find? (·.sharesResultWith f) with
  | some g =>
    simp [addTo_of_find? h]
  | none =>
    rw [addTo_of_none h]
    exact List.prefix_append ..

theorem prefix_addAll (facets fs : List Facet) : facets <+: addAll facets fs := by
  induction fs generalizing facets with
  | nil => exact List.prefix_refl facets
  | cons f rest ih => exact (prefix_addTo f facets).trans (ih _)

theorem Apart.addTo {f : Facet} (h : Apart facets) (hf : f.body.Settled) :
    Apart (f.addTo facets).1 := by
  have hnames := f.nodup_addTo h.names
  cases hx : facets.find? (·.sharesResultWith f) with
  | some g => rwa [addTo_of_find? hx]
  | none =>
    rw [addTo_of_none hx] at hnames ⊢
    refine ⟨hnames, ?_, ?_⟩
    · rw [List.pairwise_append]
      refine ⟨h.results, List.pairwise_singleton .., ?_⟩
      intro g hg k hk
      rw [List.mem_singleton.1 hk]
      have hg := List.find?_eq_none.1 hx g hg
      exact Bool.eq_false_iff.2 hg
    · intro g hg
      rcases List.mem_append.1 hg with hg | hg
      · exact h.settled g hg
      · rw [List.mem_singleton.1 hg]
        exact hf

theorem Apart.addAll (h : Apart facets) {fs : List Facet} (hs : ∀ f ∈ fs, f.body.Settled) :
    Apart (addAll facets fs) := by
  induction fs generalizing facets with
  | nil => exact h
  | cons f rest ih =>
    rw [List.forall_mem_cons] at hs
    exact ih (h.addTo hs.1) hs.2

/-- Of facets that share no result only one can stand for `f`. -/
theorem filter_sharesResultWith {f g : Facet}
    (hp : facets.Pairwise fun g h => g.sharesResultWith h = false)
    (hs : ∀ g ∈ facets, g.body.Settled) (hf : f.body.Settled) (hg : g ∈ facets)
    (h : g.sharesResultWith f = true) : facets.filter (·.sharesResultWith f) = [g] := by
  induction facets with
  | nil => cases hg
  | cons k rest ih =>
    rw [List.pairwise_cons] at hp
    rw [List.forall_mem_cons] at hs
    cases hk : k.sharesResultWith f with
    | true =>
      have hrest : rest.filter (·.sharesResultWith f) = [] := by
        rw [List.filter_eq_nil_iff]
        intro m hm hmf
        have hfm := sharesResultWith_symm (hs.2 m hm) hf hmf
        have hkm := sharesResultWith_trans hk hfm
        rw [hp.1 m hm] at hkm
        cases hkm
      have hmem : g ∈ (k :: rest).filter (·.sharesResultWith f) := List.mem_filter.2 ⟨hg, h⟩
      rw [List.filter_cons, if_pos hk, hrest] at hmem ⊢
      rw [List.mem_singleton.1 hmem]
    | false =>
      have hne : g ≠ k := by
        rintro rfl
        rw [hk] at h
        cases h
      rw [List.filter_cons_of_neg (by simp [hk])]
      exact ih hp.2 hs.2 ((List.mem_cons.1 hg).resolve_left hne)

theorem Apart.knownAs {f g : Facet} (ha : Apart facets) (hf : f.body.Settled) (hg : g ∈ facets)
    (h : g.sharesResultWith f = true) : KnownAs f facets g.name :=
  ⟨g, filter_sharesResultWith ha.results ha.settled hf hg h, rfl⟩

theorem KnownAs.mem {f : Facet} (h : KnownAs f facets n) :
    ∃ g ∈ facets, g.sharesResultWith f = true ∧ g.name = n := by
  obtain ⟨g, hg, hn⟩ := h
  have hmem : g ∈ facets.filter (·.sharesResultWith f) := by simp [hg]
  exact ⟨g, (List.mem_filter.1 hmem).1, (List.mem_filter.1 hmem).2, hn⟩

theorem knownAs_addTo {f : Facet} (ha : Apart facets) (hf : f.body.Settled) :
    KnownAs f (f.addTo facets).1 (f.addTo facets).2 := by
  obtain ⟨g, hg, hn, hs⟩ := f.exists_standsFor_addTo facets
  have hshares : g.sharesResultWith f = true := by
    rcases hs with he | hs
    · rw [sharesResultWith, he]
      exact FacetBody.agrees_refl hf
    · exact hs
  rw [← hn]
  exact (ha.addTo hf).knownAs hf hg hshares

/-- A name that was given stays right as long as the facets do. -/
theorem KnownAs.mono {f : Facet} (h : KnownAs f facets n) {after : List Facet}
    (hp : facets <+: after) (ha : Apart after) (hf : f.body.Settled) : KnownAs f after n := by
  obtain ⟨g, hg, hs, rfl⟩ := h.mem
  exact ha.knownAs hf (hp.subset hg) hs

/-- The facets are those that were there and, of the added ones, those that no facet before them can
stand for. -/
theorem bodies_addAll (facets fs : List Facet) : (addAll facets fs).map body =
    facets.map body ++
      ((firstAsked fs).filter fun g => !facets.any (·.sharesResultWith g)).map body := by
  induction fs generalizing facets with
  | nil => simp [addAll, firstAsked]
  | cons f rest ih =>
    change (addAll (f.addTo facets).1 rest).map body = _
    rw [ih, firstAsked]
    cases hany : facets.any (·.sharesResultWith f) with
    | true =>
      obtain ⟨g, hg⟩ := exists_find?_of_any hany
      -- What `f` would drop is dropped already by the facet that stands for it.
      have hdrop : ∀ k, (!facets.any (·.sharesResultWith k)) =
          (!facets.any (·.sharesResultWith k) && !f.sharesResultWith k) := by
        intro k
        cases hfk : f.sharesResultWith k with
        | false => simp
        | true =>
          have hgf : g.sharesResultWith f = true := by simpa using List.find?_some hg
          have hk : facets.any (·.sharesResultWith k) = true :=
            List.any_eq_true.2 ⟨g, List.mem_of_find?_eq_some hg, sharesResultWith_trans hgf hfk⟩
          simp [hk]
      rw [addTo_of_find? hg, List.filter_cons_of_neg (by simp [hany]), List.filter_filter,
        ← List.filter_congr fun k _ => hdrop k]
    | false =>
      have hnamed (n : String) (k : Facet) :
          (f.named n).sharesResultWith k = f.sharesResultWith k := rfl
      rw [addTo_of_none (find?_eq_none_of_any hany), List.filter_cons_of_pos (by simp [hany]),
        List.filter_filter]
      simp only [List.any_append, List.any_cons, List.any_nil, Bool.or_false, Bool.not_or, hnamed,
        List.map_append, List.map_cons, List.map_nil, List.append_assoc, List.singleton_append]
      rfl

/-- Additions in any order: every search for a name ends; the facets have names and results of their
own, and are those asked for first; and each name that was given is then and ever after that of the
one facet which stands for what was added. -/
theorem additions_keep_apart {fs : List Facet} (hs : ∀ f ∈ fs, f.body.Settled) :
    ((addAll [] fs).map name).Nodup ∧
      ((addAll [] fs).Pairwise fun g h =>
        g.sharesResultWith h = false ∧ h.sharesResultWith g = false) ∧
      (addAll [] fs).map body = (firstAsked fs).map body ∧
      ∀ before f after, fs = before ++ f :: after →
        IsFreeName ((addAll [] before).map name) f.name
            (freeName ((addAll [] before).map name) f.name) ∧
          addAll [] before <+: (f.addTo (addAll [] before)).1 ∧
          (f.addTo (addAll [] before)).1 <+: addAll [] fs ∧
          f.KnownAs (f.addTo (addAll [] before)).1 (f.addTo (addAll [] before)).2 ∧
          f.KnownAs (addAll [] fs) (f.addTo (addAll [] before)).2 := by
  have ha := apart_nil.addAll hs
  have hresults : (addAll [] fs).Pairwise fun g h =>
      g.sharesResultWith h = false ∧ h.sharesResultWith g = false := by
    refine List.Pairwise.imp_of_mem ?_ ha.results
    intro g h hg hh hgh
    refine ⟨hgh, Bool.eq_false_iff.2 fun hhg => ?_⟩
    have hshares := sharesResultWith_symm (ha.settled h hh) (ha.settled g hg) hhg
    rw [hgh] at hshares
    cases hshares
  have hbodies : (addAll [] fs).map body = (firstAsked fs).map body := by
    simpa using bodies_addAll [] fs
  refine ⟨ha.names, hresults, hbodies, ?_⟩
  rintro before f after rfl
  rw [List.forall_mem_append, List.forall_mem_cons] at hs
  have hbefore := apart_nil.addAll hs.1
  have hlater : (f.addTo (addAll [] before)).1 <+: addAll [] (before ++ f :: after) := by
    have hsplit : addAll [] (before ++ f :: after) =
        addAll (f.addTo (addAll [] before)).1 after := List.foldl_append
    rw [hsplit]
    exact prefix_addAll _ after
  have hknown := knownAs_addTo hbefore hs.2.1
  exact ⟨isFreeName_freeName _ _, prefix_addTo f _, hlater, hknown, hknown.mono hlater ha hs.2.1⟩

/-- Two counts, of which the second has a filter, around the statistics of a field that has the name
which the second count would be given. -/
def colliding : List Facet :=
  [⟨"count", .terms ["zone"] none none⟩, ⟨"count_2", .termsStats "zone" "count_2" none none⟩,
    ⟨"count", .terms ["zone"] (some (.present "cost")) none⟩, ⟨"sum", .terms ["zone"] none none⟩]

theorem additions_keep_apart_colliding :
    (addAll [] colliding).map name = ["count", "count_2", "count_3"] ∧
      ((addAll [] colliding).map name).Nodup ∧
      (addAll [] colliding).map body = (firstAsked colliding).map body ∧
      (colliding[2].addTo (addAll [] (colliding.take 2))).2 = "count_3" ∧
      KnownAs colliding[2] (addAll [] colliding) "count_3" := by
  have hs : ∀ f ∈ colliding, f.body.Settled := by
    simp [colliding, FacetBody.Settled, FacetBody.filter?, Criteria.Settled]
  have hname : (colliding[2].addTo (addAll [] (colliding.take 2))).2 = "count_3" := by rfl
  obtain ⟨hnames, -, hbodies, hadds⟩ := additions_keep_apart hs
  obtain ⟨-, -, -, -, hknown⟩ := hadds (colliding.take 2) colliding[2] (colliding.drop 3) rfl
  rw [hname] at hknown
  exact ⟨by rfl, hnames, hbodies, hname, hknown⟩

end Facet

end SearchQuery
