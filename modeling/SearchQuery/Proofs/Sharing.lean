import SearchQuery.Proofs.Columns

/-!
Equal criteria hold of the same documents, so facets may be shared between columns whose filters are
equal.
-/

namespace SearchQuery

/-- An engine reads equal constants alike where they bound, too; for numbers their order says so. -/
structure EngineReading extends Reading where
  bound_congr : ∀ {k v a b}, v.Settled → a.Settled → b.Settled → a.toDouble? = none →
    Json.same a b = true → bound k v a = bound k v b

theorem Number.units_of_same {m n : Number} (h : m.same n = true) :
    m.toDouble.units = n.toDouble.units := by
  cases m <;> cases n <;> simp_all [same, toDouble]

theorem BoundKind.looser_of_units (k : BoundKind) {x y : Double} (h : x.units = y.units) :
    k.Looser x y := by
  cases k <;> simp [Looser, h]

namespace EngineReading

/-- The reading that takes atoms literally gives other values than numbers no order. -/
def literal : EngineReading where
  toReading := .literal
  bound_congr := by
    intro k v a b _ _ _ ha h
    have hb : b.toDouble? = none := by cases a <;> cases b <;> simp_all [Json.toDouble?, Json.same]
    simp [Reading.literal, ha, hb]

theorem bound_of_same (r : EngineReading) (k : BoundKind) {v a b : Json} (hv : v.Settled)
    (ha : a.Settled) (hb : b.Settled) (h : Json.same a b = true) :
    r.bound k v a = r.bound k v b := by
  cases hx : a.toDouble? with
  | none => exact r.bound_congr hv ha hb hx h
  | some x =>
    cases a with
    | number m =>
      cases b with
      | number n =>
        have hu := Number.units_of_same h
        rw [Bool.eq_iff_iff]
        exact ⟨r.bound_mono rfl rfl (k.looser_of_units hu.symm),
          r.bound_mono rfl rfl (k.looser_of_units hu)⟩
      | _ => cases h
    | _ => cases hx

end EngineReading

theorem Bound.holds_of_sameAll (r : EngineReading) (d : Document) (field : String)
    {as bs : List Bound} (ha : ∀ b ∈ as, b.value.Settled) (hb : ∀ b ∈ bs, b.value.Settled)
    (h : sameAll as bs = true) :
    as.all (Bound.holds r.toReading d field) = bs.all (Bound.holds r.toReading d field) := by
  induction as generalizing bs with
  | nil =>
    cases bs with
    | nil => rfl
    | cons => cases h
  | cons a as ih =>
    cases bs with
    | nil => cases h
    | cons b bs =>
      simp only [sameAll, Bool.and_eq_true, decide_eq_true_eq] at h
      obtain ⟨⟨hk, hv⟩, hrest⟩ := h
      have he : Bound.holds r.toReading d field a = Bound.holds r.toReading d field b := by
        rw [Bound.holds, Bound.holds, hk]
        exact Document.has_congr fun v hs =>
          r.bound_of_same _ hs (ha a (.head _)) (hb b (.head _)) hv
      rw [List.all_cons, List.all_cons, he,
        ih (fun c hc => ha c (.tail _ hc)) (fun c hc => hb c (.tail _ hc)) hrest]

theorem Reading.any_equals_of_sameItems (r : Reading) {x : Json} (hx : x.Settled)
    {vs ws : List Json} (hv : ∀ v ∈ vs, v.Settled) (hw : ∀ w ∈ ws, w.Settled)
    (h : Json.sameItems vs ws = true) : vs.any (r.equals x) = ws.any (r.equals x) := by
  induction vs generalizing ws with
  | nil =>
    cases ws with
    | nil => rfl
    | cons => cases h
  | cons v vs ih =>
    cases ws with
    | nil => cases h
    | cons w ws =>
      simp only [Json.sameItems, Bool.and_eq_true] at h
      rw [List.any_cons, List.any_cons, r.equals_congr hx (hv v (.head _)) (hw w (.head _)) h.1,
        ih (fun c hc => hv c (.tail _ hc)) (fun c hc => hw c (.tail _ hc)) h.2]

namespace Criteria

/-- Lists of equal criteria have the same length, and hold together one by one. -/
theorem map_holds_of_sameAll {r : EngineReading} {d : Document} {as bs : List Criteria}
    (ih : ∀ a ∈ as, ∀ b : Criteria, a.WellFormed → b.WellFormed → same a b = true →
      a.holds r.toReading d = b.holds r.toReading d)
    (ha : ∀ c ∈ as, c.WellFormed) (hb : ∀ c ∈ bs, c.WellFormed) (h : sameAll as bs = true) :
    as.map (holds r.toReading d) = bs.map (holds r.toReading d) := by
  induction as generalizing bs with
  | nil =>
    cases bs with
    | nil => rfl
    | cons => cases h
  | cons a as ihas =>
    cases bs with
    | nil => cases h
    | cons b bs =>
      simp only [sameAll, Bool.and_eq_true] at h
      rw [List.map_cons, List.map_cons, ih a (.head _) b (ha a (.head _)) (hb b (.head _)) h.1,
        ihas (fun c hc => ih c (.tail _ hc)) (fun c hc => ha c (.tail _ hc))
          (fun c hc => hb c (.tail _ hc)) h.2]

theorem holds_bool_map (r : Reading) (d : Document) (must should mustNot : List Criteria) :
    (bool must should mustNot).holds r d = ((must.map (holds r d)).all id &&
      ((should.map (holds r d)).isEmpty || (should.map (holds r d)).any id) &&
        !(mustNot.map (holds r d)).any id) := by
  simp only [holds_bool, List.all_map, List.any_map, Function.id_comp, List.isEmpty_map]

/-- Equal criteria hold of the same documents. -/
theorem holds_of_same (r : EngineReading) (d : Document) {c b : Criteria} (hc : c.WellFormed)
    (hb : b.WellFormed) (h : same c b = true) : c.holds r.toReading d = b.holds r.toReading d := by
  induction c generalizing b with
  | matchAll | present | missing | startsWith | regexp | queryString => cases b <;> simp_all [same]
  | term field v =>
    cases b with
    | term g w =>
      simp only [same, Bool.and_eq_true, decide_eq_true_eq] at h
      obtain ⟨rfl, hv⟩ := h
      exact Document.has_congr fun x hx => r.equals_congr hx hc hb hv
    | _ => cases h
  | terms field vs =>
    cases b with
    | terms g ws =>
      simp only [same, Bool.and_eq_true, decide_eq_true_eq] at h
      obtain ⟨rfl, hv⟩ := h
      exact Document.has_congr fun x hx => r.any_equals_of_sameItems hx hc hb hv
    | _ => cases h
  | range field bounds =>
    cases b with
    | range g bs =>
      simp only [same, Bool.and_eq_true, decide_eq_true_eq] at h
      obtain ⟨rfl, hs⟩ := h
      exact Bound.holds_of_sameAll r d field hc.2 hb.2 hs
    | _ => cases h
  | bool must should mustNot ihm ihs ihn =>
    cases b with
    | bool must' should' mustNot' =>
      simp only [same, Bool.and_eq_true] at h
      obtain ⟨⟨hm, hs⟩, hn⟩ := h
      obtain ⟨-, hcm, hcs, hcn⟩ := wellFormed_bool_iff.1 hc
      obtain ⟨-, hbm, hbs, hbn⟩ := wellFormed_bool_iff.1 hb
      rw [holds_bool_map, holds_bool_map,
        map_holds_of_sameAll (fun c hc b hw hb h => ihm c hc hw hb h) hcm hbm hm,
        map_holds_of_sameAll (fun c hc b hw hb h => ihs c hc hw hb h) hcs hbs hs,
        map_holds_of_sameAll (fun c hc b hw hb h => ihn c hc hw hb h) hcn hbn hn]
    | _ => cases h

end Criteria

namespace FacetBody

theorem all_holds_of_beq (r : EngineReading) (d : Document) {f g : Option Criteria}
    (hf : ∀ c ∈ f, c.WellFormed) (hg : ∀ c ∈ g, c.WellFormed) (h : (f == g) = true) :
    f.all (Criteria.holds r.toReading d) = g.all (Criteria.holds r.toReading d) := by
  cases f with
  | none =>
    cases g with
    | none => rfl
    | some => cases h
  | some c =>
    cases g with
    | none => cases h
    | some b => exact Criteria.holds_of_same r d (hf c rfl) (hg b rfl) h

/-- A facet that stands for another one is computed from the same documents. -/
theorem StandsFor.filter_holds {g f : FacetBody} (h : g.StandsFor f)
    (hg : ∀ c ∈ g.filter?, c.WellFormed) (hf : ∀ c ∈ f.filter?, c.WellFormed) (r : EngineReading)
    (d : Document) :
    g.filter?.all (Criteria.holds r.toReading d) =
      f.filter?.all (Criteria.holds r.toReading d) := by
  rcases h with rfl | h
  · rfl
  · cases g with
    | terms =>
      cases f with
      | terms =>
        rw [agrees, Bool.and_eq_true] at h
        exact all_holds_of_beq r d hg hf h.2
      | _ => cases h
    | termsStats =>
      cases f with
      | termsStats =>
        rw [agrees, Bool.and_eq_true] at h
        exact all_holds_of_beq r d hg hf h.2
      | _ => cases h
    | statistical =>
      cases f with
      | statistical =>
        rw [agrees, Bool.and_eq_true] at h
        exact all_holds_of_beq r d hg hf h.2
      | _ => cases h
    | filter c =>
      cases f with
      | filter b => exact Criteria.holds_of_same r d (hg c rfl) (hf b rfl) h
      | _ => cases h

end FacetBody

end SearchQuery
