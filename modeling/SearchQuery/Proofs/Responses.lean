import SearchQuery.Response.Basic
import SearchQuery.Proofs.RoundTrip

/-!
Responses and results of facets are read back from their JSON once they were decoded: decoding
settles whatever repeats a name, and what is settled is read back as it is. The members that a
bucket or a statistical result has no place for are kept as they stand.
-/

namespace SearchQuery

open Json

namespace Members

theorem collapseMembers_eq_map (members : Members) :
    collapseMembers members = members.map fun m => (m.1, m.2.collapse) := by
  induction members with
  | nil => rfl
  | cons m rest ih => rw [collapseMembers, ih, List.map_cons]

theorem names_collapseMembers (members : Members) :
    names (collapseMembers members) = members.names := by
  rw [collapseMembers_eq_map, names, List.map_map]
  rfl

theorem names_foldl_insert_subset (members : Members) (entries : List (String × Json)) :
    names (entries.foldl (fun members (name, value) => insert name value members) members) ⊆
      members.names ++ names entries := by
  induction entries generalizing members with
  | nil => simp
  | cons m rest ih =>
    intro n hn
    have hm := ih (members.insert m.1 m.2) hn
    have hi : names (members.insert m.1 m.2) =
        if m.1 ∈ members.names then members.names else members.names ++ [m.1] :=
      names_insert m.1 m.2 members
    rw [hi] at hm
    split at hm <;> simp only [names, List.map_cons, List.mem_append, List.mem_cons] at hm ⊢ <;>
      tauto

theorem names_ofList_subset (entries : List (String × Json)) :
    (ofList entries).names ⊆ names entries :=
  names_foldl_insert_subset [] entries

theorem get?_eq_head? (name : String) (members : Members) :
    members.get? name = (members.filter (·.1 = name)).head?.map Prod.snd := by
  induction members with
  | nil => rfl
  | cons m rest ih =>
    by_cases h : m.1 = name <;> simp [get?, h, ih]

theorem filter_filter_ne {name other : String} (h : name ≠ other) (members : Members) :
    (members.filter (·.1 ≠ other)).filter (·.1 = name) = members.filter (·.1 = name) := by
  rw [List.filter_filter]
  apply List.filter_congr
  intro m _
  by_cases hm : m.1 = name <;> simp [hm, h]

theorem get?_filter_ne {name other : String} (h : name ≠ other) (members : Members) :
    get? name (members.filter (·.1 ≠ other)) = members.get? name := by
  rw [get?_eq_head?, filter_filter_ne h, get?_eq_head?]

theorem filter_ne_of_notMem {members : Members} (h : name ∉ members.names) :
    members.filter (·.1 ≠ name) = members := by
  rw [List.filter_eq_self]
  intro m hm
  have hne : m.1 ≠ name := fun he => h (he ▸ mem_names hm)
  simpa using hne

end Members

namespace Json

theorem Settled.filter {members : Members} (h : (Json.object members).Settled)
    (p : String × Json → Bool) : (Json.object (members.filter p)).Settled := by
  obtain ⟨hn, hs⟩ := h
  constructor
  · exact hn.sublist (List.filter_sublist.map _)
  · induction members with
    | nil => trivial
    | cons m rest ih =>
      have hrest := ih (List.nodup_cons.1 hn).2 hs.2
      rw [List.filter_cons]
      split
      · exact ⟨hs.1, hrest⟩
      · exact hrest

theorem unique?_eq_some (h : unique? members name = some o) : o = Members.get? name members := by
  rw [Members.get?_eq_head?]
  unfold unique? at h
  split at h
  next he =>
    cases h
    rw [he]
    rfl
  next he =>
    cases h
    rw [he]
    rfl
  next => cases h

/-- A name that stands first and is not repeated. -/
theorem unique?_cons {members : Members} (h : name ∉ members.names) (v : Json) :
    unique? ((name, v) :: members) name = some (some v) := by
  have hf : members.filter (·.1 = name) = [] := by
    rw [List.filter_eq_nil_iff]
    intro m hm he
    exact h (of_decide_eq_true he ▸ Members.mem_names hm)
  simp [unique?, hf]

theorem settled_of_members? {j : Json} (h : j.members? = some members) :
    (Json.object members).Settled := by
  cases j with
  | object entries =>
    cases h
    exact settled_collapse (.object entries)
  | _ => cases h

theorem members?_of_settled (h : (Json.object members).Settled) :
    (Json.object members).members? = some members := by
  have hc := collapse_of_settled (.object members) h
  rw [collapse, Json.object.injEq] at hc
  rw [members?, hc]

theorem notMem_names_of_members? {members : Members}
    (h : (Json.object (members.filter (·.1 ≠ name))).members? = some values) :
    name ∉ Members.names values := by
  cases h
  intro hm
  have hn := Members.names_ofList_subset _ hm
  rw [Members.names_collapseMembers] at hn
  simp [Members.names] at hn

theorem settled_object_cons {values : Members} (hn : name ∉ values.names) {v : Json}
    (hv : v.Settled) (hs : (Json.object values).Settled) :
    (Json.object ((name, v) :: values)).Settled :=
  ⟨List.nodup_cons.2 ⟨hn, hs.1⟩, hv, hs.2⟩

/-- The members beside a name that stands first. -/
theorem members?_beside {values : Members} {v : Json}
    (h : (Json.object ((name, v) :: values)).Settled) :
    (Json.object (((name, v) :: values).filter (·.1 ≠ name))).members? = some values := by
  have hnot := (List.nodup_cons.1 h.1).1
  have hvalues : (Json.object values).Settled := ⟨(List.nodup_cons.1 h.1).2, h.2.2⟩
  rw [List.filter_cons, if_neg (by simp), Members.filter_ne_of_notMem hnot,
    members?_of_settled hvalues]

theorem collapse_ne_null {v : Json} (h : v ≠ .null) : v.collapse ≠ .null := by
  cases v with
  | null => exact absurd rfl h
  | bool | number | string | array | object => simp [collapse]

/-- What is read of an optional member was there, and was not `null`. -/
theorem exists_of_optional? {decode : Json → Option α} {v : Option Json}
    (h : optional? decode v = some o) : ∀ a ∈ o, ∃ j, j ≠ .null ∧ decode j = some a := by
  rintro a rfl
  unfold optional? at h
  split at h
  · cases h
  · cases h
  next j hne =>
    obtain ⟨b, hb, hba⟩ := Option.map_eq_some_iff.1 h
    cases hba
    exact ⟨j, hne, hb⟩

theorem optional?_ofOption_string (o : Option String) :
    optional? string? (some (ofOption .string o)) = some o :=
  optional?_ofOption (by simp) fun _ _ => rfl

theorem optional?_ofOption_float (o : Option Double) :
    optional? toDouble? (some (ofOption Hit.float o)) = some o :=
  optional?_ofOption (by simp [Hit.float]) fun _ _ => rfl

theorem optional?_ofOption_object {o : Option Members}
    (h : ∀ members ∈ o, (Json.object members).Settled) :
    optional? members? (some (ofOption .object o)) = some o :=
  optional?_ofOption (by simp) fun members hm => members?_of_settled (h members hm)

/-- The items of a list that was read were read one by one. -/
theorem forall₂_of_list? {decode : Json → Option α} {j : Json} (h : list? decode j = some as) :
    ∃ items, j = .array items ∧ List.Forall₂ (fun v a => decode v = some a) items as := by
  cases j with
  | array items =>
    refine ⟨items, rfl, ?_⟩
    change items.mapM decode = some as at h
    induction items generalizing as with
    | nil =>
      cases h
      exact .nil
    | cons v rest ih =>
      rw [List.mapM_cons] at h
      obtain ⟨a, ha, h⟩ := Option.bind_eq_some_iff.1 h
      obtain ⟨tail, htail, h⟩ := Option.bind_eq_some_iff.1 h
      cases h
      exact .cons ha (ih htail)
  | _ => cases h

theorem forall_of_list? {P : α → Prop} {decode : Json → Option α}
    (hd : ∀ v a, decode v = some a → P a) {j : Json} (h : list? decode j = some as) :
    ∀ a ∈ as, P a := by
  obtain ⟨items, -, hf⟩ := forall₂_of_list? h
  clear h
  intro a ha
  induction hf with
  | nil => cases ha
  | cons hv _ ih =>
    rcases List.mem_cons.1 ha with rfl | hr
    · exact hd _ _ hv
    · exact ih hr

end Json

/-- The document and the fields of a hit are settled; a document is not `null`. -/
structure Hit.Settled (h : Hit) : Prop where
  source : ∀ v ∈ h.source, v ≠ .null ∧ v.Settled
  fields : ∀ members ∈ h.fields, (Json.object members).Settled

namespace Hit

theorem settled_of_ofJson? {h : Hit} (hj : ofJson? j = some h) : h.Settled := by
  obtain ⟨parts, -, hj⟩ := Option.bind_eq_some_iff.1 hj
  split at hj
  · obtain ⟨index, -, hj⟩ := Option.bind_eq_some_iff.1 hj
    obtain ⟨docType, -, hj⟩ := Option.bind_eq_some_iff.1 hj
    obtain ⟨id, -, hj⟩ := Option.bind_eq_some_iff.1 hj
    obtain ⟨score, -, hj⟩ := Option.bind_eq_some_iff.1 hj
    obtain ⟨source, hsource, hj⟩ := Option.bind_eq_some_iff.1 hj
    obtain ⟨fields, hfields, hj⟩ := Option.bind_eq_some_iff.1 hj
    cases hj
    constructor
    · intro v hv
      obtain ⟨w, hw, he⟩ := exists_of_optional? hsource v hv
      cases he
      exact ⟨collapse_ne_null hw, settled_collapse w⟩
    · intro members hm
      obtain ⟨w, -, he⟩ := exists_of_optional? hfields members hm
      exact settled_of_members? he
  · cases hj

theorem optional?_source {source : Option Json} (h : ∀ v ∈ source, v ≠ .null ∧ v.Settled) :
    optional? (some ·.collapse) (some (source.getD .null)) = some source := by
  cases source with
  | none => rfl
  | some v =>
    obtain ⟨hne, hv⟩ := h v rfl
    rw [Option.getD_some, optional?_of_ne_null hne, collapse_of_settled v hv, Option.map_some]

theorem ofJson?_toJson {h : Hit} (hs : h.Settled) : ofJson? h.toJson = some h := by
  change (do
    return ⟨← optional? string? (some (ofOption .string h.index)),
      ← optional? string? (some (ofOption .string h.docType)),
      ← optional? string? (some (ofOption .string h.id)),
      ← optional? toDouble? (some (ofOption float h.score)),
      ← optional? (some ·.collapse) (some (h.source.getD .null)),
      ← optional? members? (some (ofOption .object h.fields))⟩) = some h
  rw [optional?_ofOption_string, optional?_ofOption_string, optional?_ofOption_string,
    optional?_ofOption_float, optional?_source hs.source, optional?_ofOption_object hs.fields]
  rfl

end Hit

def Hits.Settled (h : Hits) : Prop := ∀ hits ∈ h.hits, ∀ hit ∈ hits, hit.Settled

namespace Hits

theorem settled_of_ofJson? {h : Hits} (hj : ofJson? j = some h) : h.Settled := by
  obtain ⟨parts, -, hj⟩ := Option.bind_eq_some_iff.1 hj
  split at hj
  · obtain ⟨total, -, hj⟩ := Option.bind_eq_some_iff.1 hj
    obtain ⟨maxScore, -, hj⟩ := Option.bind_eq_some_iff.1 hj
    obtain ⟨hits, hhits, hj⟩ := Option.bind_eq_some_iff.1 hj
    cases hj
    intro found hf
    obtain ⟨w, -, he⟩ := exists_of_optional? hhits found hf
    exact forall_of_list? (fun _ _ => Hit.settled_of_ofJson?) he
  · cases hj

theorem ofJson?_toJson {h : Hits} (hs : h.Settled) : ofJson? h.toJson = some h := by
  have hhits : optional? (list? Hit.ofJson?)
      (some (ofOption (fun found => .array (found.map Hit.toJson)) h.hits)) = some h.hits := by
    apply optional?_ofOption
    · simp
    · intro found hf
      exact list?_map fun hit hm => Hit.ofJson?_toJson (hs found hf hit hm)
  change (do
    return ⟨← withDefault? 0 nat? (some (nat h.total)),
      ← optional? toDouble? (some (ofOption Hit.float h.maxScore)),
      ← optional? (list? Hit.ofJson?)
        (some (ofOption (fun found => .array (found.map Hit.toJson)) h.hits))⟩) = some h
  rw [withDefault?, nat?_nat, optional?_ofOption_float, hhits]
  rfl

end Hits

structure Response.Settled (r : Response) : Prop where
  hits : ∀ h ∈ r.hits, h.Settled
  facets : ∀ members ∈ r.facets, (Json.object members).Settled

namespace Response

theorem settled_of_ofJson? {r : Response} (hj : ofJson? j = some r) : r.Settled := by
  obtain ⟨parts, -, hj⟩ := Option.bind_eq_some_iff.1 hj
  split at hj
  · obtain ⟨took, -, hj⟩ := Option.bind_eq_some_iff.1 hj
    obtain ⟨timedOut, -, hj⟩ := Option.bind_eq_some_iff.1 hj
    obtain ⟨hits, hhits, hj⟩ := Option.bind_eq_some_iff.1 hj
    obtain ⟨facets, hfacets, hj⟩ := Option.bind_eq_some_iff.1 hj
    cases hj
    constructor
    · intro h hm
      obtain ⟨w, -, he⟩ := exists_of_optional? hhits h hm
      exact Hits.settled_of_ofJson? he
    · intro members hm
      obtain ⟨w, -, he⟩ := exists_of_optional? hfacets members hm
      exact settled_of_members? he
  · cases hj

theorem ofJson?_toJson {r : Response} (hs : r.Settled) : ofJson? r.toJson = some r := by
  have hhits : optional? Hits.ofJson? (some (ofOption Hits.toJson r.hits)) = some r.hits := by
    apply optional?_ofOption
    · simp [Hits.toJson]
    · intro h hm
      exact Hits.ofJson?_toJson (hs.hits h hm)
  change (do
    return ⟨← withDefault? 0 nat? (some (nat r.took)),
      ← withDefault? false bool? (some (.bool r.timedOut)),
      ← optional? Hits.ofJson? (some (ofOption Hits.toJson r.hits)),
      ← optional? members? (some (ofOption .object r.facets))⟩) = some r
  rw [withDefault?, nat?_nat, withDefault?, bool?, hhits, optional?_ofOption_object hs.facets]
  rfl

end Response

namespace Bucket

theorem exists_of_ofJson? {b : Bucket} (h : ofJson? j = some b) :
    ∃ members v, j = .object members ∧ unique? members "term" = some (some v) ∧
      b.term = v.collapse ∧
      (Json.object (members.filter (·.1 ≠ "term"))).members? = some b.values := by
  cases j with
  | object members =>
    obtain ⟨o, ho, h⟩ := Option.bind_eq_some_iff.1 h
    split at h
    next v =>
      cases h
      exact ⟨members, v, rfl, ho, rfl, rfl⟩
    next => cases h
  | _ => cases h

theorem settled_of_ofJson? {b : Bucket} (h : ofJson? j = some b) : b.toJson.Settled := by
  obtain ⟨members, v, -, -, hterm, hvalues⟩ := exists_of_ofJson? h
  apply settled_object_cons (notMem_names_of_members? hvalues)
  · rw [hterm]
    exact settled_collapse v
  · exact settled_of_members? hvalues

theorem ofJson?_toJson {b : Bucket} (hs : b.toJson.Settled) : ofJson? b.toJson = some b := by
  have hterm := unique?_cons (List.nodup_cons.1 hs.1).1 b.term
  have hvalues := members?_beside hs
  rw [members?, Option.some.injEq] at hvalues
  rw [toJson, ofJson?, hterm]
  change some (Bucket.mk b.term.collapse (.ofList (collapseMembers
    (List.filter (·.1 ≠ "term") (("term", b.term) :: b.values))))) = some b
  rw [hvalues, collapse_of_settled b.term hs.2.1]

/-- A bucket has the term apart, and all else that its object says in the order of the object. -/
def Keeps (b : Bucket) (v : Json) : Prop :=
  ∃ members, v = .object members ∧ Members.get? "term" members = some b.term ∧
    b.values = members.filter (·.1 ≠ "term")

theorem keeps_of_ofJson? {b : Bucket} {v : Json} (hs : v.Settled) (h : ofJson? v = some b) :
    b.Keeps v := by
  obtain ⟨members, term, rfl, hu, hterm, hvalues⟩ := exists_of_ofJson? h
  have hget := unique?_eq_some hu
  have hsettled : term.Settled := hs.2.mem (Members.mem_of_get? hget.symm)
  rw [members?_of_settled (hs.filter _), Option.some.injEq] at hvalues
  refine ⟨members, rfl, ?_, hvalues.symm⟩
  rw [← hget, hterm, collapse_of_settled term hsettled]

end Bucket

namespace FacetResult

theorem cases_of_ofJson? {r : FacetResult} (h : ofJson? j = some r) :
    ∃ kind payload, tagged? "_type" j = some (kind, payload) ∧
      ((∃ bs, buckets? payload = some bs ∧ (r = .terms bs ∨ r = .termsStats bs)) ∨
        (∃ values, payload.members? = some values ∧ r = .statistical values) ∨
        ∃ count, r = .filter count) := by
  obtain ⟨⟨kind, payload⟩, htag, h⟩ := Option.bind_eq_some_iff.1 h
  refine ⟨kind, payload, htag, ?_⟩
  dsimp only at h
  split at h
  case h_1 =>
    obtain ⟨bs, hbs, h⟩ := Option.bind_eq_some_iff.1 h
    cases h
    exact .inl ⟨bs, hbs, .inl rfl⟩
  case h_2 =>
    obtain ⟨bs, hbs, h⟩ := Option.bind_eq_some_iff.1 h
    cases h
    exact .inl ⟨bs, hbs, .inr rfl⟩
  case h_3 =>
    obtain ⟨values, hvalues, h⟩ := Option.bind_eq_some_iff.1 h
    cases h
    exact .inr (.inl ⟨values, hvalues, rfl⟩)
  case h_4 =>
    obtain ⟨parts, -, h⟩ := Option.bind_eq_some_iff.1 h
    split at h
    · obtain ⟨count, -, h⟩ := Option.bind_eq_some_iff.1 h
      cases h
      exact .inr (.inr ⟨count, rfl⟩)
    · cases h
  case h_5 => cases h

/-- A tagged value without its tag. -/
theorem payload_cases (h : tagged? tag j = some (kind, payload)) :
    (∃ members, j = .object members ∧ payload = .object (members.filter (·.1 ≠ tag))) ∨
      ∃ rest, j = .array (.string kind :: rest) ∧ payload = .array rest := by
  unfold tagged? at h
  split at h
  next members =>
    split at h
    · cases h
      exact .inl ⟨members, rfl, rfl⟩
    · cases h
  next rest =>
    cases h
    exact .inr ⟨rest, rfl, rfl⟩
  next => cases h

/-- The members of a statistical result are those of an object beside its tag. -/
theorem exists_of_members? (ht : tagged? tag j = some (kind, payload))
    (h : payload.members? = some values) : ∃ members, j = .object members ∧
      (Json.object (members.filter (·.1 ≠ tag))).members? = some values := by
  rcases payload_cases ht with ⟨members, rfl, rfl⟩ | ⟨rest, rfl, rfl⟩
  · exact ⟨members, rfl, h⟩
  · cases h

theorem exists_of_buckets? (h : buckets? payload = some bs) :
    ∃ o, record? ["terms"] payload = some [o] ∧
      withDefault? [] (list? Bucket.ofJson?) o = some bs := by
  obtain ⟨parts, hp, h⟩ := Option.bind_eq_some_iff.1 h
  split at h
  next o => exact ⟨o, hp, h⟩
  next => cases h

theorem settled_of_buckets? (h : buckets? payload = some bs) : ∀ b ∈ bs, b.toJson.Settled := by
  obtain ⟨o, -, ho⟩ := exists_of_buckets? h
  cases o with
  | none =>
    cases ho
    intro b hb
    cases hb
  | some v => exact forall_of_list? (fun _ _ => Bucket.settled_of_ofJson?) ho

theorem settled_of_ofJson? {r : FacetResult} (h : ofJson? j = some r) : r.toJson.Settled := by
  obtain ⟨kind, payload, ht, hr⟩ := cases_of_ofJson? h
  rcases hr with ⟨bs, hbs, rfl | rfl⟩ | ⟨values, hvalues, rfl⟩ | ⟨count, rfl⟩
  · have hitems := settledItems_iff.2 (List.forall_mem_map.2 (settled_of_buckets? hbs))
    exact ⟨by simp [Members.names], trivial, hitems, trivial⟩
  · have hitems := settledItems_iff.2 (List.forall_mem_map.2 (settled_of_buckets? hbs))
    exact ⟨by simp [Members.names], trivial, hitems, trivial⟩
  · obtain ⟨members, -, hmembers⟩ := exists_of_members? ht hvalues
    exact settled_object_cons (notMem_names_of_members? hmembers) trivial
      (settled_of_members? hmembers)
  · exact ⟨by simp [Members.names], trivial, trivial, trivial⟩

theorem buckets?_toJson {bs : List Bucket} (h : SettledItems (bs.map Bucket.toJson)) :
    buckets? (.object [("terms", .array (bs.map Bucket.toJson))]) = some bs := by
  change list? Bucket.ofJson? (.array (bs.map Bucket.toJson)) = some bs
  apply list?_map
  intro b hb
  exact Bucket.ofJson?_toJson (h.mem (List.mem_map_of_mem hb))

theorem ofJson?_toJson {r : FacetResult} (hs : r.toJson.Settled) : ofJson? r.toJson = some r := by
  cases r with
  | terms bs =>
    change (buckets? (.object [("terms", .array (bs.map Bucket.toJson))])).bind
      (some ∘ terms) = some (terms bs)
    rw [buckets?_toJson hs.2.2.1]
    rfl
  | termsStats bs =>
    change (buckets? (.object [("terms", .array (bs.map Bucket.toJson))])).bind
      (some ∘ termsStats) = some (termsStats bs)
    rw [buckets?_toJson hs.2.2.1]
    rfl
  | statistical values =>
    have htag := unique?_cons (List.nodup_cons.1 hs.1).1 (.string "statistical")
    have hvalues := members?_beside hs
    rw [toJson, ofJson?, tagged?, htag]
    change (do return statistical (← members? (.object
      (List.filter (·.1 ≠ "_type") (("_type", .string "statistical") :: values))))) = _
    rw [hvalues]
    rfl
  | filter count =>
    change (do return filter (← nat? (nat count))) = some (filter count)
    rw [nat?_nat]
    rfl

/-- The buckets of a result as they stand in it. -/
def bucketItems : Json → List Json
  | .array [_, .array items] => items
  | .object members =>
    match Members.get? "terms" members with
    | some (.array items) => items
    | _ => []
  | _ => []

/-- A result keeps what it was decoded from: each bucket its object, and statistics all but the
tag. -/
def Keeps (j : Json) : FacetResult → Prop
  | terms bs | termsStats bs => List.Forall₂ (fun v b => Bucket.Keeps b v) (bucketItems j) bs
  | statistical values => ∃ members, j = .object members ∧ values = members.filter (·.1 ≠ "_type")
  | filter _ => True

/-- The buckets of a result are those that its items are decoded as. -/
theorem forall₂_bucketItems (ht : tagged? "_type" j = some (kind, payload))
    (h : buckets? payload = some bs) :
    List.Forall₂ (fun v b => Bucket.ofJson? v = some b) (bucketItems j) bs := by
  obtain ⟨o, hp, ho⟩ := exists_of_buckets? h
  rcases payload_cases ht with ⟨members, rfl, rfl⟩ | ⟨rest, rfl, rfl⟩
  · rw [record?, List.mapM_cons] at hp
    obtain ⟨u, hu, hp⟩ := Option.bind_eq_some_iff.1 hp
    cases hp
    have hget := unique?_eq_some hu
    rw [Members.get?_filter_ne (by simp)] at hget
    cases o with
    | none =>
      cases ho
      rw [bucketItems, ← hget]
      exact .nil
    | some v =>
      obtain ⟨items, rfl, hitems⟩ := forall₂_of_list? ho
      rw [bucketItems, ← hget]
      exact hitems
  · cases rest with
    | nil =>
      cases hp
      cases ho
      exact .nil
    | cons v rest =>
      cases rest with
      | nil =>
        cases hp
        obtain ⟨items, rfl, hitems⟩ := forall₂_of_list? ho
        exact hitems
      | cons => simp [record?] at hp

theorem settled_bucketItems (h : j.Settled) : ∀ v ∈ bucketItems j, v.Settled := by
  intro v hv
  unfold bucketItems at hv
  split at hv
  next items => exact h.2.1.mem hv
  next members =>
    split at hv
    next items hget =>
      have hitems : (Json.array items).Settled := h.2.mem (Members.mem_of_get? hget)
      exact hitems.mem hv
    next => cases hv
  next => cases hv

theorem keeps_of_ofJson? {r : FacetResult} (hs : j.Settled) (h : ofJson? j = some r) :
    r.Keeps j := by
  obtain ⟨kind, payload, ht, hr⟩ := cases_of_ofJson? h
  have hbuckets {bs} (hbs : buckets? payload = some bs) :
      List.Forall₂ (fun v b => Bucket.Keeps b v) (bucketItems j) bs := by
    have hitems := (List.forall₂_and_left _ _).2
      ⟨settled_bucketItems hs, forall₂_bucketItems ht hbs⟩
    exact hitems.imp fun v b hv => Bucket.keeps_of_ofJson? hv.1 hv.2
  rcases hr with ⟨bs, hbs, rfl | rfl⟩ | ⟨values, hvalues, rfl⟩ | ⟨count, rfl⟩
  · exact hbuckets hbs
  · exact hbuckets hbs
  · obtain ⟨members, rfl, hmembers⟩ := exists_of_members? ht hvalues
    rw [members?_of_settled (hs.filter _), Option.some.injEq] at hmembers
    exact ⟨members, rfl, hmembers.symm⟩
  · trivial

end FacetResult

/-- Encoding and decoding again changes nothing that was decoded, and what was decoded has all the
members of buckets and statistical results in their order. -/
theorem decoded_read_back :
    (∀ j r, Response.ofJson? j = some r → Response.ofJson? r.toJson = some r) ∧
      (∀ j r, FacetResult.ofJson? j = some r → FacetResult.ofJson? r.toJson = some r) ∧
      ∀ j r, j.Settled → FacetResult.ofJson? j = some r → FacetResult.Keeps j r := by
  have hresponse (j : Json) (r : Response) (h : Response.ofJson? j = some r) :
      Response.ofJson? r.toJson = some r :=
    Response.ofJson?_toJson (Response.settled_of_ofJson? h)
  have hresult (j : Json) (r : FacetResult) (h : FacetResult.ofJson? j = some r) :
      FacetResult.ofJson? r.toJson = some r :=
    FacetResult.ofJson?_toJson (FacetResult.settled_of_ofJson? h)
  exact ⟨hresponse, hresult, fun j r hs h => FacetResult.keeps_of_ofJson? hs h⟩

/-- A response as the array of its sections, with a hit whose document is `null`. -/
def positional : Json :=
  .array [.nat 3, .bool true, .object [("hits", .array [.object [("_source", .null),
    ("_id", .string "1"), ("fields", .object [("zone", .null)])]])]]

/-- What is read of it: the missing total is 0, and the `null` of a document is no document. -/
def ofPositional : Response :=
  { took := 3, timedOut := true, hits := some { total := 0, hits := some [
    { id := some "1", source := none, fields := some [("zone", .null)] }] } }

/-- A result with a bucket for documents without a term, which does not come first. -/
def statsOfNull : Json :=
  .object [("missing", .nat 0), ("terms", .array [.object [("count", .nat 2), ("term", .null),
    ("mean", .nat 5)]]), ("_type", .string "terms_stats")]

theorem decoded_read_back_null :
    (Response.ofJson? positional = some ofPositional ∧
        Response.ofJson? ofPositional.toJson = some ofPositional) ∧
      ∃ bs, FacetResult.ofJson? statsOfNull = some (.termsStats bs) ∧
        bs = [⟨.null, [("count", .nat 2), ("mean", .nat 5)]⟩] ∧
        FacetResult.ofJson? (FacetResult.toJson (.termsStats bs)) = some (.termsStats bs) ∧
        FacetResult.Keeps statsOfNull (.termsStats bs) := by
  have hs : statsOfNull.Settled := by
    simp [statsOfNull, Json.Settled, SettledMembers, SettledItems, Members.names, Json.nat]
  have hr : FacetResult.ofJson? statsOfNull =
      some (.termsStats [⟨.null, [("count", .nat 2), ("mean", .nat 5)]⟩]) := rfl
  refine ⟨⟨rfl, decoded_read_back.1 positional _ rfl⟩, _, hr, rfl, ?_, ?_⟩
  · exact decoded_read_back.2.1 statsOfNull _ hr
  · exact decoded_read_back.2.2 statsOfNull _ hs hr

end SearchQuery
