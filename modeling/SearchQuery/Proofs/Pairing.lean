import Mathlib.Data.Set.Operations
import SearchQuery.Proofs.Renaming

/-!
Projections under two namings. Facets are named after fields, so their names differ, too; but side
by side they compute the same, and columns read the same of them under whatever name.
-/

namespace SearchQuery

namespace Facet

/-- The facet over renamed fields, under another name of its own. -/
def renamed (ρ σ : String → String) (f : Facet) : Facet := ⟨σ f.name, f.body.renamed ρ⟩

/-- The facet over renamed fields, under the name that stands beside it. -/
def renamedTo (ρ : String → String) (x : Facet × String) : Facet := ⟨x.2, x.1.body.renamed ρ⟩

end Facet

def Projection.renamed (ρ : String → String) : Projection → Projection
  | source => source
  | field name => field (ρ name)
  | record members => record (members.map fun m => (m.1, ρ m.2))

def Cell.renamed (σ : String → String) : Cell → Cell
  | key => key
  | statistic facet s => statistic (σ facet) s

def Column.renamed (σ : String → String) (c : Column) : Column := ⟨c.name, c.cell.renamed σ⟩

def GroupRows.renamed (σ : String → String) (x : GroupRows) : GroupRows :=
  { x with columns := x.columns.map (·.renamed σ), bucketFacets := x.bucketFacets.map σ }

variable {names names' : FieldNames} {ρ : String → String}

namespace Projection

theorem eraseDups_map (hρ : Function.Injective ρ) (fields : List String) :
    (fields.map ρ).eraseDups = fields.eraseDups.map ρ := by
  cases fields with
  | nil => rfl
  | cons field rest =>
    have hrest : (rest.map ρ).filter (fun f => !f == ρ field) =
        (rest.filter fun f => !f == field).map ρ := by
      rw [List.filter_map]
      congr 1
      apply List.filter_congr
      intro f _
      simp [hρ.eq_iff]
    rw [List.map_cons, List.eraseDups_cons, hrest, eraseDups_map hρ, List.eraseDups_cons,
      List.map_cons]
termination_by fields.length
decreasing_by exact Nat.lt_succ_of_le (List.length_filter_le ..)

/-- Fields are given once under each naming. -/
theorem fields_renamed (hρ : Function.Injective ρ) (p : Projection) :
    (p.renamed ρ).fields = p.fields.map ρ := by
  cases p with
  | source | field => rfl
  | record members =>
    rw [renamed, fields, fields, ← eraseDups_map hρ, List.map_map, List.map_map]
    rfl

theorem valueType_renamed (docType : String) (p : Projection) :
    (p.renamed ρ).valueType docType = p.valueType docType := by
  cases p with
  | source | field => rfl
  | record members => simp [renamed, valueType, Function.comp_def]

theorem alike_ofExpr (hn : names.Renames names' ρ) (e : Expr) :
    Alike ρ (fun p p' => p' = p.renamed ρ) (ofExpr names e) (ofExpr names' e) := by
  cases e with
  | member m => exact .ok (congrArg Projection.field (hn.field m))
  | record fields =>
    apply Alike.bind
    · apply Alike.mapM (r := fun m : String × String => (m.1, ρ m.2))
      intro m
      apply (hn.alike_fieldOf .select m.2).bind
      rintro f _ rfl
      exact .ok rfl
    · rintro members _ rfl
      exact .ok rfl
  | _ => exact .error _

end Projection

namespace Facet

theorem sharesResultWith_renamed (hρ : Function.Injective ρ) {f f' : Facet}
    (hf : f'.body = f.body.renamed ρ) (x : Facet × String) :
    (renamedTo ρ x).sharesResultWith f' = x.1.sharesResultWith f := by
  rw [sharesResultWith, sharesResultWith, hf]
  exact FacetBody.agrees_renamed hρ x.1.body f.body

/-- The same facet is shared under both namings, or both have one more. -/
theorem exists_addTo (hρ : Function.Injective ρ) {f f' : Facet} (hf : f'.body = f.body.renamed ρ)
    (pairs : List (Facet × String)) : ∃ after x, pairs ⊆ after ∧ x ∈ after ∧
      f.addTo (pairs.map Prod.fst) = (after.map Prod.fst, x.1.name) ∧
      f'.addTo (pairs.map (renamedTo ρ)) = (after.map (renamedTo ρ), x.2) := by
  have hfind : (pairs.map (renamedTo ρ)).find? (·.sharesResultWith f') =
      (pairs.find? (·.1.sharesResultWith f)).map (renamedTo ρ) := by
    rw [List.find?_map]
    simp only [Function.comp_def, sharesResultWith_renamed hρ hf]
  have hfind' : (pairs.map Prod.fst).find? (·.sharesResultWith f) =
      (pairs.find? (·.1.sharesResultWith f)).map Prod.fst := List.find?_map ..
  cases hx : pairs.find? (·.1.sharesResultWith f) with
  | some x =>
    rw [hx] at hfind hfind'
    refine ⟨pairs, x, List.Subset.refl _, List.mem_of_find?_eq_some hx, ?_, ?_⟩
    · exact addTo_of_find? hfind'
    · exact addTo_of_find? hfind
  | none =>
    rw [hx] at hfind hfind'
    refine ⟨pairs ++ [(f.named (freeName ((pairs.map Prod.fst).map name) f.name),
      freeName ((pairs.map (renamedTo ρ)).map name) f'.name)], _, List.subset_append_left ..,
      List.mem_append_right _ (.head _), ?_, ?_⟩
    · rw [addTo_of_none hfind', List.map_append]
      rfl
    · rw [addTo_of_none hfind, List.map_append]
      simp [renamedTo, named, hf]

/-- Facets of different names can be renamed one by one. -/
theorem exists_renaming {pairs : List (Facet × String)} (hn : (pairs.map (·.1.name)).Nodup) :
    ∃ σ : String → String, ∀ x ∈ pairs, σ x.1.name = x.2 := by
  induction pairs with
  | nil => exact ⟨id, by simp⟩
  | cons x rest ih =>
    rw [List.map_cons, List.nodup_cons] at hn
    obtain ⟨σ, hσ⟩ := ih hn.2
    refine ⟨Function.update σ x.1.name x.2, List.forall_mem_cons.2 ⟨by simp, ?_⟩⟩
    intro y hy
    have hne : y.1.name ≠ x.1.name := by
      intro he
      exact hn.1 (he ▸ List.mem_map_of_mem hy)
    rw [Function.update_of_ne hne, hσ y hy]

end Facet

/-- Cells that read a facet under its two names. -/
inductive Cell.Paired (pairs : List (Facet × String)) : Cell → Cell → Prop
  | key : Paired pairs .key .key
  | statistic (hx : x ∈ pairs) : Paired pairs (.statistic x.1.name s) (.statistic x.2 s)

theorem Cell.Paired.mono (h : Cell.Paired pairs c c') (hs : pairs ⊆ after) :
    Cell.Paired after c c' := by
  cases h with
  | key => exact .key
  | statistic hx => exact .statistic (hs hx)

def Column.Paired (pairs : List (Facet × String)) (c c' : Column) : Prop :=
  c'.name = c.name ∧ c.cell.Paired pairs c'.cell

theorem Column.Paired.mono (h : Column.Paired pairs c c') (hs : pairs ⊆ after) :
    Column.Paired after c c' := by
  constructor
  · exact h.1
  · exact h.2.mono hs

namespace GroupedProjection

theorem alike_facet (hn : names.Renames names' ρ) (key : Option String) (a : Aggregate)
    (argument : Option Expr) : Alike ρ (fun f f' => f'.body = f.body.renamed ρ)
      (facet names key a argument) (facet names' (key.map ρ) a argument) := by
  cases a with
  | count =>
    have hfilter : Alike ρ (fun f f' => f' = f.map (Criteria.renamed ρ))
        (argument.mapM (Expr.criteria names)) (argument.mapM (Expr.criteria names')) := by
      cases argument with
      | none => exact .ok rfl
      | some e =>
        rw [Option.mapM_some, Option.mapM_some]
        apply (Expr.alike_criteria hn e).bind
        rintro c _ rfl
        exact .ok rfl
    apply hfilter.bind
    rintro f _ rfl
    cases key with
    | none =>
      cases f with
      | none => exact .ok rfl
      | some c => exact .ok rfl
    | some k => exact .ok rfl
  | sum | average | min | max =>
    cases argument with
    | none => exact .error _
    | some e =>
      apply (hn.alike_fieldOf _ e).bind
      rintro value _ rfl
      cases key with
      | none => exact .ok rfl
      | some k => exact .ok rfl

/-- What two namings make of some columns: they go on with the same facets, and read the same. -/
def GoesOn (ρ : String → String) (pairs : List (Facet × String))
    (R : List (Facet × String) → α → α → Prop) (x x' : List Facet × α) : Prop :=
  ∃ after, pairs ⊆ after ∧ x.1 = after.map Prod.fst ∧ x'.1 = after.map (Facet.renamedTo ρ) ∧
    R after x.2 x'.2

theorem alike_column (hn : names.Renames names' ρ) (key : Option String)
    (pairs : List (Facet × String)) (name : Option String) (e : Expr) :
    Alike ρ (GoesOn ρ pairs Column.Paired) (column names key (pairs.map Prod.fst) name e)
      (column names' (key.map ρ) (pairs.map (Facet.renamedTo ρ)) name e) := by
  cases e with
  | groupKey => exact .ok ⟨pairs, List.Subset.refl _, rfl, rfl, rfl, .key⟩
  | aggregate a argument =>
    rw [column, column]
    apply (alike_facet hn key a argument).bind
    intro f f' hf
    obtain ⟨after, x, hs, hx, ha, ha'⟩ := Facet.exists_addTo hn.injective hf pairs
    rw [ha, ha']
    exact .ok ⟨after, hs, rfl, rfl, rfl, .statistic hx⟩
  | _ => exact .error _

theorem alike_columns (hn : names.Renames names' ρ) (key : Option String)
    (pairs : List (Facet × String)) (before : List String) (fields : List (String × Expr)) :
    Alike ρ (GoesOn ρ pairs fun after cs cs' => List.Forall₂ (Column.Paired after) cs cs')
      (columns names key (pairs.map Prod.fst) before fields)
      (columns names' (key.map ρ) (pairs.map (Facet.renamedTo ρ)) before fields) := by
  induction fields generalizing pairs before with
  | nil => exact .ok ⟨pairs, List.Subset.refl _, rfl, rfl, .nil⟩
  | cons m rest ih =>
    obtain ⟨name, e⟩ := m
    rw [columns, columns]
    split
    · exact .error _
    · apply (alike_column hn key pairs (some name) e).bind
      rintro ⟨_, c⟩ ⟨_, c'⟩ ⟨middle, hs, rfl, rfl, hc⟩
      apply (ih middle (before ++ [name])).bind
      rintro ⟨_, cs⟩ ⟨_, cs'⟩ ⟨after, hs', rfl, rfl, hcs⟩
      exact .ok ⟨after, List.Subset.trans hs hs', rfl, rfl, .cons (hc.mono hs') hcs⟩

/-- Projections of groups that have the same facets and columns under two namings. -/
structure Paired (ρ : String → String) (pairs : List (Facet × String))
    (p p' : GroupedProjection) : Prop where
  facets : p.facets = pairs.map Prod.fst
  facets' : p'.facets = pairs.map (Facet.renamedTo ρ)
  columns : List.Forall₂ (Column.Paired pairs) p.rows.columns p'.rows.columns
  type : p'.rows.type = p.rows.type
  grouped : p'.rows.grouped = p.rows.grouped

theorem exists_withGroups (ρ : String → String) (key : Option String)
    (pairs : List (Facet × String)) : ∃ after, pairs ⊆ after ∧
      withGroups key (pairs.map Prod.fst) = after.map Prod.fst ∧
      withGroups (key.map ρ) (pairs.map (Facet.renamedTo ρ)) = after.map (Facet.renamedTo ρ) := by
  cases key with
  | none => exact ⟨pairs, List.Subset.refl _, rfl, rfl⟩
  | some k =>
    cases pairs with
    | nil => exact ⟨[(counting k none, "count")], List.nil_subset _, rfl, rfl⟩
    | cons x rest => exact ⟨x :: rest, List.Subset.refl _, rfl, rfl⟩

theorem exists_paired_ofColumns (ρ : String → String) (key : Option String) (type : ValueType)
    {pairs : List (Facet × String)} {cs cs' : List Column}
    (hc : List.Forall₂ (Column.Paired pairs) cs cs') :
    ∃ after, Paired ρ after (ofColumns key type (pairs.map Prod.fst) cs)
      (ofColumns (key.map ρ) type (pairs.map (Facet.renamedTo ρ)) cs') := by
  obtain ⟨after, hs, hf, hf'⟩ := exists_withGroups ρ key pairs
  exact ⟨after, hf, hf', hc.imp fun _ _ h => h.mono hs, rfl, Option.isSome_map⟩

theorem alike_ofExpr (hn : names.Renames names' ρ) (key : Option String) (e : Expr) :
    Alike ρ (fun p p' => ∃ pairs, Paired ρ pairs p p') (ofExpr names key e)
      (ofExpr names' (key.map ρ) e) := by
  cases e with
  | record fields =>
    apply (alike_columns hn key [] [] fields).bind
    rintro ⟨_, cs⟩ ⟨_, cs'⟩ ⟨pairs, -, rfl, rfl, hc⟩
    exact .ok (exists_paired_ofColumns ρ key _ hc)
  | _ =>
    apply (alike_column hn key [] none _).bind
    rintro ⟨_, c⟩ ⟨_, c'⟩ ⟨pairs, -, rfl, rfl, hc⟩
    exact .ok (exists_paired_ofColumns ρ key _ (.cons hc .nil))

def renamed (ρ σ : String → String) (p : GroupedProjection) : GroupedProjection :=
  ⟨p.facets.map (Facet.renamed ρ σ), p.rows.renamed σ⟩

theorem columns_renamed {σ : String → String} (hσ : ∀ x ∈ pairs, σ x.1.name = x.2)
    (h : List.Forall₂ (Column.Paired pairs) cs cs') : cs' = cs.map (Column.renamed σ) := by
  induction h with
  | nil => rfl
  | @cons c c' rest rest' hc _ ih =>
    obtain ⟨name, cell⟩ := c
    obtain ⟨name', cell'⟩ := c'
    obtain ⟨hname, hcell⟩ := hc
    obtain rfl : name' = name := hname
    rw [List.map_cons, ih]
    congr 1
    cases hcell with
    | key => rfl
    | statistic hx => rw [Column.renamed, Cell.renamed, hσ _ hx]

/-- Facets that stand side by side are told apart by either of their names. -/
theorem Paired.exists_eq_renamed (h : Paired ρ pairs p p') (hl : Lowers names key e p)
    (hl' : Lowers names' key' e p') :
    ∃ σ : String → String, Set.InjOn σ {n | n ∈ p.facets.map Facet.name} ∧ p' = p.renamed ρ σ := by
  have hn : (pairs.map (·.1.name)).Nodup := by
    have hnodup := hl.nodup
    rwa [h.facets, List.map_map] at hnodup
  have hn' : (pairs.map Prod.snd).Nodup := by
    have hnodup := hl'.nodup
    rwa [h.facets', List.map_map] at hnodup
  obtain ⟨σ, hσ⟩ := Facet.exists_renaming hn
  have hfacets : p'.facets = p.facets.map (Facet.renamed ρ σ) := by
    rw [h.facets', h.facets, List.map_map]
    apply List.map_congr_left
    intro x hx
    simp [Facet.renamed, Facet.renamedTo, hσ x hx]
  have hbuckets : p'.rows.bucketFacets = p.rows.bucketFacets.map σ := by
    rw [hl'.bucketFacets, hl.bucketFacets, hfacets, List.filter_map, List.map_map, List.map_map]
    simp only [Function.comp_def, Facet.renamed, FacetBody.hasBuckets_renamed]
  have hcolumns := columns_renamed hσ h.columns
  have htype := h.type
  have hgrouped := h.grouped
  refine ⟨σ, ?_, ?_⟩
  · rw [h.facets, List.map_map]
    intro m hm n hn he
    obtain ⟨x, hx, rfl⟩ := List.mem_map.1 hm
    obtain ⟨y, hy, rfl⟩ := List.mem_map.1 hn
    have hxy : x.2 = y.2 := (hσ x hx).symm.trans (he.trans (hσ y hy))
    rw [List.inj_on_of_nodup_map hn' hx hy hxy]
  · obtain ⟨facets, columns, type, grouped, bucketFacets⟩ := p'
    subst hfacets hbuckets hcolumns htype hgrouped
    rfl

theorem alike_ofExpr_renamed (hn : names.Renames names' ρ) (key : Option String) (e : Expr) :
    Alike ρ (fun p p' => ∃ σ : String → String,
        Set.InjOn σ {n | n ∈ p.facets.map Facet.name} ∧ p' = p.renamed ρ σ)
      (ofExpr names key e) (ofExpr names' (key.map ρ) e) := by
  apply (alike_ofExpr hn key e).imp_ok
  rintro p p' hp hp' ⟨pairs, h⟩
  exact h.exists_eq_renamed (lowers_ofExpr hp) (lowers_ofExpr hp')

theorem limited_renamed (σ : String → String) (n : Nat) (p : GroupedProjection) :
    (p.renamed ρ σ).limited n = (p.limited n).renamed ρ σ := by
  rw [limited, limited, renamed, renamed, List.map_map, List.map_map]
  simp only [Function.comp_def, Facet.limited, Facet.renamed, FacetBody.limited_renamed]

theorem limitedTo_renamed (σ : String → String) (limit : Option Nat) (p : GroupedProjection) :
    (p.renamed ρ σ).limitedTo limit = (p.limitedTo limit).renamed ρ σ := by
  cases limit with
  | none => rfl
  | some n => exact limited_renamed σ n p

end GroupedProjection

end SearchQuery
