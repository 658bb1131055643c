import Mathlib.Data.List.Induction
import SearchQuery.Extractor
import SearchQuery.Grouping
import SearchQuery.Proofs.Responses
import SearchQuery.Proofs.Wire

/-!
Answers to facets as they stand in JSON: the terms of their buckets, and the value that they hold of
an aggregate for a term, or for all documents. Decoded results have the same terms and values.
-/

namespace SearchQuery

open Json

/-- The value of a name that an object has once. -/
def Json.sole? (name : String) : Json → Option Json
  | .object members =>
    if (members.map Prod.fst).count name = 1 then Members.get? name members else none
  | _ => none

namespace Answer

/-- The kind of an answer, under `_type` or in the first place of an array. -/
def kind? : Json → Option String
  | .array (.string kind :: _) => some kind
  | j =>
    match j.sole? "_type" with
    | some (.string kind) => some kind
    | _ => none

/-- What stands under a name, or in the second place of an array. -/
def part? (name : String) : Json → Option Json
  | .array [_, v] => some v
  | j => j.sole? name

/-- The buckets of an answer, each with one value of every name. When some of them has no term, none
of them counts. -/
def buckets (j : Json) : List Json :=
  match part? "terms" j with
  | some (.array items) =>
    if (kind? j = some "terms" ∨ kind? j = some "terms_stats") ∧
        ∀ v ∈ items, (v.sole? "term").isSome then
      items.map collapse
    else []
  | _ => []

def terms (j : Json) : List Json := (buckets j).filterMap (member? "term")

/-- What an answer holds under a name for a term, or for all documents when there is no term. -/
def holds? (name : String) (j : Json) : Option Json → Option Json
  | some t => ((buckets j).find? fun b => (b.member? "term").any (· == t)).bind (member? name)
  | none =>
    if kind? j = some "statistical" then j.collapse.member? name
    else if kind? j = some "filter" ∧ name = "count" then
      match part? "count" j with
      | some (.number (.int n)) => if 0 ≤ n then some (.number (.int n)) else none
      | _ => none
    else none

end Answer

namespace Aggregate

/-- The name under which the engine gives the value of an aggregate. -/
def resultName : Aggregate → String
  | count => "count"
  | sum => "total"
  | average => "mean"
  | min => "min"
  | max => "max"

/-- The value for a group of which nothing is known. -/
def ofNothing : Aggregate → Json
  | count => .nat 0
  | _ => .null

/-- The value for a term that is found in an answer, if there is an answer. -/
def valueIn (a : Aggregate) (answer : Option Json) (term : Option Json) : Json :=
  (answer.bind fun j => Answer.holds? a.resultName j term).getD a.ofNothing

end Aggregate

namespace Members

theorem count_names (name : String) (members : Members) :
    (members.map Prod.fst).count name = (members.filter (·.1 = name)).length := by
  rw [List.count_eq_countP, List.countP_map, List.countP_eq_length_filter]
  rfl

theorem ofList_concat (given : List (String × Json)) (name : String) (v : Json) :
    ofList (given ++ [(name, v)]) = (ofList given).insert name v := List.foldl_append

/-- Members are inserted in their order, so the last of a name is the one that is found. -/
theorem get?_ofList (given : List (String × Json)) (name : String) :
    (ofList given).get? name = get? name given.reverse := by
  induction given using List.reverseRecOn with
  | nil => rfl
  | append_singleton given m ih =>
    rw [ofList_concat, get?_insert, ih, List.reverse_append, List.reverse_singleton,
      List.singleton_append, get?]

/-- Settling repetitions leaves the last value of a name. -/
theorem get?_collapse (members : Members) (name : String) :
    (ofList (collapseMembers members)).get? name =
      ((members.filter (·.1 = name)).getLast?).map fun m => m.2.collapse := by
  rw [get?_ofList, get?_eq_head?, List.filter_reverse, List.head?_reverse, collapseMembers_eq_map,
    List.filter_map, List.getLast?_map, Option.map_map]
  rfl

end Members

namespace Json

theorem sole?_object (members : Members) (name : String) :
    (Json.object members).sole? name = (unique? members name).join := by
  rw [sole?, Members.count_names, Members.get?_eq_head?, unique?]
  cases members.filter (·.1 = name) with
  | nil => rfl
  | cons m rest => cases rest <;> simp

theorem unique?_filter_ne (h : name ≠ other) (members : Members) :
    unique? (members.filter (·.1 ≠ other)) name = unique? members name := by
  rw [unique?, Members.filter_filter_ne h, unique?]

theorem member?_collapse_of_sole? (h : sole? name j = some v) :
    j.collapse.member? name = some v.collapse := by
  cases j with
  | object members =>
    rw [sole?, Members.count_names, Members.get?_eq_head?] at h
    rw [collapse, member?, Members.get?_collapse]
    split at h
    next hone =>
      obtain ⟨m, hm⟩ := List.length_eq_one_iff.1 hone
      rw [hm] at h ⊢
      cases h
      rfl
    next => cases h
  | _ => cases h

/-- A member is found whether or not another one is taken away. -/
theorem member?_collapse_filter_ne (h : name ≠ other) (members : Members) :
    (Members.ofList (collapseMembers (members.filter (·.1 ≠ other)))).get? name =
      (Json.object members).collapse.member? name := by
  rw [collapse, member?, Members.get?_collapse, Members.filter_filter_ne h, Members.get?_collapse]

end Json

namespace Answer

theorem kind?_eq (j : Json) : kind? j = (tagged? "_type" j).map Prod.fst := by
  cases j with
  | object members =>
    rw [kind?, sole?_object, tagged?]
    · rcases unique? members "_type" with _ | _ | v
      · rfl
      · rfl
      · cases v <;> rfl
    · simp
  | array items =>
    cases items with
    | nil => rfl
    | cons v rest => cases v <;> rfl
  | _ => rfl

/-- The one member that a kind of answers declares, or a failure. -/
theorem record?_part (ht : tagged? "_type" j = some (kind, payload)) (hn : name ≠ "_type") :
    ∃ o : Option (Option Json), record? [name] payload = o.map (fun v => [v]) ∧
      part? name j = o.join := by
  rcases FacetResult.payload_cases ht with ⟨members, rfl, rfl⟩ | ⟨rest, rfl, rfl⟩
  · refine ⟨unique? members name, ?_, sole?_object members name⟩
    rw [record?, List.mapM_cons, unique?_filter_ne hn]
    cases unique? members name <;> rfl
  · cases rest with
    | nil => exact ⟨some none, rfl, rfl⟩
    | cons v rest =>
      cases rest with
      | nil => exact ⟨some (some v), rfl, rfl⟩
      | cons => exact ⟨none, by simp [record?], rfl⟩

end Answer

namespace Bucket

/-- A bucket as it stands in an answer. -/
def Shows (b : Bucket) (v : Json) : Prop :=
  v.member? "term" = some b.term ∧ ∀ name, name ≠ "term" → v.member? name = b.values.get? name

/-- Decoding a bucket fails only for want of a term. -/
theorem isSome_ofJson? (v : Json) : (ofJson? v).isSome = (v.sole? "term").isSome := by
  cases v with
  | object members =>
    rw [sole?_object, ofJson?]
    rcases unique? members "term" with _ | _ | v <;> rfl
  | _ => rfl

theorem shows_of_ofJson? {b : Bucket} {v : Json} (h : ofJson? v = some b) : b.Shows v.collapse := by
  obtain ⟨members, term, rfl, hu, hterm, hvalues⟩ := exists_of_ofJson? h
  constructor
  · rw [hterm]
    exact member?_collapse_of_sole? (by rw [sole?_object, hu]; rfl)
  · intro name hn
    rw [members?, Option.some.injEq] at hvalues
    rw [← hvalues, member?_collapse_filter_ne hn]

variable {vs : List Json} {bs : List Bucket}

theorem filterMap_term (h : List.Forall₂ (fun v b => Shows b v) vs bs) :
    vs.filterMap (member? "term") = bs.map term := by
  induction h with
  | nil => rfl
  | cons hv _ ih => rw [List.filterMap_cons, hv.1, ih, List.map_cons]

theorem find?_term (h : List.Forall₂ (fun v b => Shows b v) vs bs) (t : Json)
    (hn : name ≠ "term") :
    (vs.find? fun v => (v.member? "term").any (· == t)).bind (member? name) =
      (bs.find? (·.term == t)).bind fun b => b.values.get? name := by
  induction h with
  | nil => rfl
  | @cons v b _ _ hv _ ih =>
    rw [List.find?_cons, List.find?_cons, hv.1, Option.any_some]
    cases b.term == t with
    | true => exact hv.2 name hn
    | false => exact ih

end Bucket

theorem Json.isSome_list? {decode : Json → Option α} {items : List Json} :
    (list? decode (.array items)).isSome ↔ ∀ v ∈ items, (decode v).isSome := by
  rw [list?]
  induction items with
  | nil => simp
  | cons v rest ih =>
    rw [List.forall_mem_cons, ← ih, List.mapM_cons]
    cases decode v with
    | none => simp
    | some a => cases rest.mapM decode <;> simp

theorem Statistic.key_ne (s : Statistic) : s.key ≠ "term" ∧ s.key ≠ "_type" := by
  cases s <;> simp [key]

namespace Answer

/-- What an answer of each kind is decoded as, if it can be decoded. -/
inductive Decodes (j : Json) : Option FacetResult → Prop
  | terms {o : Option (Option Json)} (hk : kind? j = some "terms")
    (hp : part? "terms" j = o.join) :
    Decodes j ((o.bind (withDefault? [] (list? Bucket.ofJson?))).map .terms)
  | termsStats {o : Option (Option Json)} (hk : kind? j = some "terms_stats")
    (hp : part? "terms" j = o.join) :
    Decodes j ((o.bind (withDefault? [] (list? Bucket.ofJson?))).map .termsStats)
  | statistical {values : Option Members} (hk : kind? j = some "statistical")
    (hv : ∀ name, name ≠ "_type" → values.bind (Members.get? name) = j.collapse.member? name) :
    Decodes j (values.map .statistical)
  | filter {o : Option (Option Json)} (hk : kind? j = some "filter")
    (hp : part? "count" j = o.join) :
    Decodes j ((o.bind (withDefault? 0 nat?)).map .filter)
  | unknown (hk : ∀ kind ∈ kind? j, kind ∉ ["terms", "terms_stats", "statistical", "filter"]) :
    Decodes j none

theorem buckets?_eq {o : Option (Option Json)}
    (h : record? ["terms"] payload = o.map fun v => [v]) :
    FacetResult.buckets? payload = o.bind (withDefault? [] (list? Bucket.ofJson?)) := by
  rw [FacetResult.buckets?, h]
  cases o <;> rfl

theorem member?_of_payload (ht : tagged? tag j = some (kind, payload)) (hn : name ≠ tag) :
    payload.members?.bind (Members.get? name) = j.collapse.member? name := by
  rcases FacetResult.payload_cases ht with ⟨members, rfl, rfl⟩ | ⟨rest, rfl, rfl⟩
  · exact member?_collapse_filter_ne hn members
  · rfl

theorem decodes (j : Json) : Decodes j (FacetResult.ofJson? j) := by
  have hkind := kind?_eq j
  rw [FacetResult.ofJson?]
  cases ht : tagged? "_type" j with
  | none =>
    rw [ht] at hkind
    exact .unknown (by simp [hkind])
  | some t =>
    obtain ⟨kind, payload⟩ := t
    rw [ht] at hkind
    simp only [bind_pure_comp, Option.map_eq_map, Option.bind_eq_bind, Option.bind_some]
    -- All kinds but statistics declare one member besides the tag.
    split
    case h_1 =>
      obtain ⟨o, hrecord, hpart⟩ := record?_part ht (by simp : "terms" ≠ "_type")
      rw [buckets?_eq hrecord]
      exact .terms hkind hpart
    case h_2 =>
      obtain ⟨o, hrecord, hpart⟩ := record?_part ht (by simp : "terms" ≠ "_type")
      rw [buckets?_eq hrecord]
      exact .termsStats hkind hpart
    case h_3 => exact .statistical hkind fun name hn => member?_of_payload ht hn
    case h_4 =>
      obtain ⟨o, hrecord, hpart⟩ := record?_part ht (by simp : "count" ≠ "_type")
      have hfilter := Decodes.filter hkind hpart
      rw [hrecord]
      cases o with
      | none => exact hfilter
      | some v => exact hfilter
    case h_5 h₁ h₂ h₃ h₄ =>
      refine .unknown fun k hk => ?_
      rw [hkind] at hk
      cases hk
      simpa using ⟨h₁, h₂, h₃, h₄⟩

/-- The buckets of an answer are those that are decoded. -/
theorem shows_buckets {o : Option (Option Json)} (hp : part? "terms" j = o.join)
    (hk : kind? j = some "terms" ∨ kind? j = some "terms_stats") :
    List.Forall₂ (fun v b => Bucket.Shows b v) (buckets j)
      ((o.bind (withDefault? [] (list? Bucket.ofJson?))).getD []) := by
  rw [buckets, hp]
  match o with
  | none => exact .nil
  | some none => exact .nil
  | some (some v) =>
    cases v with
    | array items =>
      have hsome : (list? Bucket.ofJson? (.array items)).isSome ↔
          ∀ v ∈ items, (v.sole? "term").isSome := by
        simp only [isSome_list?, Bucket.isSome_ofJson?]
      change List.Forall₂ _ (if _ then _ else _) ((list? Bucket.ofJson? (.array items)).getD [])
      cases hbs : list? Bucket.ofJson? (.array items) with
      | none =>
        rw [hbs] at hsome
        rw [if_neg fun h => Bool.false_ne_true (hsome.2 h.2)]
        exact .nil
      | some bs =>
        rw [hbs] at hsome
        rw [if_pos ⟨hk, hsome.1 rfl⟩, List.forall₂_map_left_iff]
        obtain ⟨items, he, hitems⟩ := forall₂_of_list? hbs
        cases he
        exact hitems.imp fun v b => Bucket.shows_of_ofJson?
    | _ => exact .nil

theorem buckets_of_kind (hk : kind? j ≠ some "terms" ∧ kind? j ≠ some "terms_stats") :
    buckets j = [] := by
  rw [buckets]
  split
  · rw [if_neg fun h => h.1.elim hk.1 hk.2]
  · rfl

theorem shows_decoded (j : Json) :
    List.Forall₂ (fun v b => Bucket.Shows b v) (buckets j)
      (((FacetResult.ofJson? j).map FacetResult.buckets).getD []) := by
  have h := decodes j
  generalize FacetResult.ofJson? j = r at h
  cases h with
  | @terms o hk hp =>
    rw [Option.map_map, show FacetResult.buckets ∘ .terms = id from rfl, Option.map_id]
    exact shows_buckets hp (.inl hk)
  | @termsStats o hk hp =>
    rw [Option.map_map, show FacetResult.buckets ∘ .termsStats = id from rfl, Option.map_id]
    exact shows_buckets hp (.inr hk)
  | @statistical values hk =>
    rw [buckets_of_kind (by simp [hk])]
    cases values <;> exact .nil
  | @filter o hk =>
    rw [buckets_of_kind (by simp [hk])]
    cases o.bind (withDefault? 0 nat?) <;> exact .nil
  | unknown hk =>
    rw [buckets_of_kind ⟨fun h => by simpa using hk _ h, fun h => by simpa using hk _ h⟩]
    exact .nil

theorem terms_eq (j : Json) :
    terms j = (((FacetResult.ofJson? j).map FacetResult.buckets).getD []).map Bucket.term :=
  Bucket.filterMap_term (shows_decoded j)

/-- Of a term, a result has what is in the first bucket of the term. -/
theorem holds?_term (s : Statistic) (j t : Json) :
    holds? s.key j (some t) = (FacetResult.ofJson? j).bind (·.statistic? (some t) s) := by
  have hstat (r : FacetResult) : r.statistic? (some t) s =
      (r.buckets.find? (·.term == t)).bind fun b => b.values.get? s.key := by
    cases r <;> rfl
  rw [holds?, Bucket.find?_term (shows_decoded j) t s.key_ne.1]
  cases FacetResult.ofJson? j with
  | none => rfl
  | some r => exact (hstat r).symm

/-- A count that is left out, or that is no count, stands for none. -/
theorem holds?_count {o : Option (Option Json)} (hk : kind? j = some "filter")
    (hp : part? "count" j = o.join) :
    (holds? "count" j none).getD (.nat 0) = .nat ((o.bind (withDefault? 0 nat?)).getD 0) := by
  rw [holds?, hk, if_neg (by simp), if_pos ⟨rfl, rfl⟩, hp]
  match o with
  | none => rfl
  | some none => rfl
  | some (some (.number (.int n))) =>
    change Option.getD (if 0 ≤ n then _ else _) _ =
      Json.nat (Option.getD (if 0 ≤ n then _ else _) 0)
    split
    next hn => rw [Option.getD_some, Option.getD_some, Json.nat, Int.toNat_of_nonneg hn]
    next => rfl
  | some (some (.number (.float _))) => rfl
  | some (some .null) | some (some (.bool _)) | some (some (.string _))
  | some (some (.array _)) | some (some (.object _)) => rfl

/-- For all documents, only statistical results and counts have something. -/
theorem holds?_all (s : Statistic) (j : Json) :
    (holds? s.key j none).getD s.whenAbsent =
      ((FacetResult.ofJson? j).bind (·.statistic? none s)).getD s.whenAbsent := by
  have h := decodes j
  generalize FacetResult.ofJson? j = r at h
  cases h with
  | @terms o hk | @termsStats o hk =>
    rw [holds?, hk, if_neg (by simp), if_neg (by simp)]
    cases o.bind (withDefault? [] (list? Bucket.ofJson?)) <;> rfl
  | @statistical values hk hv =>
    rw [holds?, if_pos hk, ← hv s.key s.key_ne.2]
    cases values <;> rfl
  | @filter o hk hp =>
    cases s with
    | count =>
      refine (holds?_count hk hp).trans ?_
      cases o.bind (withDefault? 0 nat?) <;> rfl
    | total | mean | min | max =>
      rw [holds?, hk, if_neg (by simp), if_neg (by simp [Statistic.key])]
      cases o.bind (withDefault? 0 nat?) <;> rfl
  | unknown hk =>
    have hs : kind? j ≠ some "statistical" := fun h => by simpa using hk _ h
    have hf : kind? j ≠ some "filter" := fun h => by simpa using hk _ h
    rw [holds?, if_neg hs, if_neg fun h => hf h.1]
    rfl

end Answer

/-- The value of an aggregate in an answer is the statistic of the decoded result. -/
theorem Aggregate.valueIn_eq (a : Aggregate) (answer term : Option Json) :
    a.valueIn answer term =
      ((answer.bind FacetResult.ofJson?).bind
        (·.statistic? term (GroupedProjection.statistic a))).getD
          (GroupedProjection.statistic a).whenAbsent := by
  have hname : a.resultName = (GroupedProjection.statistic a).key := by cases a <;> rfl
  have hnone : a.ofNothing = (GroupedProjection.statistic a).whenAbsent := by cases a <;> rfl
  rw [valueIn, hname, hnone]
  cases answer with
  | none => rfl
  | some j =>
    cases term with
    | none => exact Answer.holds?_all _ j
    | some t => exact congrArg (Option.getD · _) (Answer.holds?_term _ j t)

/-- A cell has what stands in the response under the name that it reads. -/
theorem Cell.value_statistic (a : Aggregate) (name : String) (r : Response) (term : Option Json) :
    (statistic name (GroupedProjection.statistic a)).value r term =
      a.valueIn (r.facets.bind (Members.get? name)) term := by
  have hfacet : r.facet? name = (r.facets.bind (Members.get? name)).bind FacetResult.ofJson? :=
    (Option.bind_assoc ..).symm
  rw [value, hfacet, Aggregate.valueIn_eq]

end SearchQuery
