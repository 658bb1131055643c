import Mathlib.Data.List.Induction
import SearchQuery.Proofs.Arguments
import SearchQuery.Proofs.Decoding
import SearchQuery.Proofs.Wire

/-!
Expressions and queries are read back from their JSON. The depth of the value that is read bounds
the reading, and each part of a tree stands deeper in the value than the tree itself.
-/

namespace SearchQuery

open Json

namespace Json

theorem collapseItems_eq_self {items : List Json} (h : ∀ v ∈ items, v.collapse = v) :
    collapseItems items = items := by
  induction items with
  | nil => rfl
  | cons v rest ih =>
    rw [List.forall_mem_cons] at h
    rw [collapseItems, h.1, ih h.2]

theorem collapseMembers_eq_self {members : Members} (h : ∀ m ∈ members, m.2.collapse = m.2) :
    collapseMembers members = members := by
  induction members with
  | nil => rfl
  | cons m rest ih =>
    rw [List.forall_mem_cons] at h
    rw [collapseMembers, h.1, ih h.2]

/-- A value that repeats no name stays as it is when repetitions are settled. -/
theorem collapse_of_settled (v : Json) (h : v.Settled) : v.collapse = v := by
  induction v with
  | null | bool | number | string => rfl
  | array items ih =>
    have hitems := collapseItems_eq_self fun v hv => ih v hv (SettledItems.mem h hv)
    rw [collapse, hitems]
  | object members ih =>
    have hmembers := collapseMembers_eq_self fun m hm => ih m hm (SettledMembers.mem h.2 hm)
    rw [collapse, hmembers, Members.ofList_of_nodup h.1]

theorem optional?_of_ne_null {decode : Json → Option α} {v : Json} (h : v ≠ .null) :
    optional? decode (some v) = (decode v).map some := by
  cases v with
  | null => exact absurd rfl h
  | bool | number | string | array | object => rfl

/-- An argument that is absent is written as `null`, which no encoding is. -/
theorem optional?_ofOption {encode : α → Json} {decode : Json → Option α} {o : Option α}
    (hn : ∀ a ∈ o, encode a ≠ .null) (hd : ∀ a ∈ o, decode (encode a) = some a) :
    optional? decode (some (ofOption encode o)) = some o := by
  cases o with
  | none => rfl
  | some a => rw [ofOption, optional?_of_ne_null (hn a rfl), hd a rfl, Option.map_some]

end Json

theorem Member.ofJson?_toJson (m : Member) : ofJson? m.toJson = some m := by
  change (do return ⟨← list? string? (.strings m.path)⟩) = some m
  rw [list?_strings]
  rfl

namespace Expr

theorem toJson_ne_null (e : Expr) : e.toJson ≠ .null := by
  cases e with
  | aggregate a argument => cases argument <;> simp [toJson]
  | _ => simp [toJson]

theorem fieldsToJson_eq_map (fields : List (String × Expr)) : fieldsToJson fields =
    fields.map fun m => .object [("name", .string m.1), ("expr", m.2.toJson)] := by
  induction fields with
  | nil => rfl
  | cons m rest ih => rw [fieldsToJson, ih, List.map_cons]

theorem depth_le_depthItems {fields : List (String × Expr)} (hm : m ∈ fields) :
    m.2.toJson.depth + 1 ≤ depthItems (fieldsToJson fields) := by
  induction fields with
  | nil => cases hm
  | cons first rest ih =>
    rw [fieldsToJson, depthItems]
    rcases List.mem_cons.1 hm with rfl | hr
    · exact Nat.le_trans (by simp [depth, depthMembers]) (Nat.le_max_left _ _)
    · exact Nat.le_trans (ih hr) (Nat.le_max_right _ _)

theorem depth_pos (e : Expr) : 0 < e.toJson.depth := by
  cases e with
  | aggregate a argument => cases argument <;> exact Nat.succ_pos _
  | _ => exact Nat.succ_pos _

/-- The JSON of a part stands inside that of the whole. -/
theorem depth_lt_of_mem_parts {e p : Expr} (h : p ∈ e.parts) :
    p.toJson.depth < e.toJson.depth := by
  cases e with
  | member | constant | startsWith | regexp | groupKey => cases h
  | compare op left right | and left right | or left right =>
    simp only [parts, List.mem_cons, List.not_mem_nil, or_false] at h
    simp only [toJson, depth, depthMembers]
    rcases h with rfl | rfl <;> omega
  | not e =>
    simp only [parts, List.mem_singleton] at h
    simp only [toJson, depth, depthMembers, h]
    omega
  | aggregate a argument =>
    cases argument with
    | none => cases h
    | some e =>
      simp only [parts, List.mem_singleton] at h
      simp only [toJson, depth, depthMembers, h]
      omega
  | record fields =>
    obtain ⟨m, hm, rfl⟩ := List.mem_map.1 h
    have hd := depth_le_depthItems hm
    simp only [toJson, depth, depthMembers]
    omega

theorem Settled.of_mem_parts {e p : Expr} (he : e.Settled) (h : p ∈ e.parts) : p.Settled := by
  cases e with
  | member | constant | startsWith | regexp | groupKey => cases h
  | compare op left right | and left right | or left right =>
    simp only [parts, List.mem_cons, List.not_mem_nil, or_false] at h
    rcases h with rfl | rfl
    · exact he.1
    · exact he.2
  | not e =>
    rw [List.mem_singleton.1 h]
    exact he
  | aggregate a argument =>
    cases argument with
    | none => cases h
    | some e =>
      rw [List.mem_singleton.1 h]
      exact he
  | record fields =>
    obtain ⟨m, hm, rfl⟩ := List.mem_map.1 h
    exact SettledFields.mem he hm

theorem readField_toJson {read : Json → Option Expr} {m : String × Expr}
    (h : read m.2.toJson = some m.2) :
    readWithin.readField read (.object [("name", .string m.1), ("expr", m.2.toJson)]) =
      some m := by
  change (do return (m.1, ← read m.2.toJson)) = some m
  rw [h]
  rfl

/-- A tree is read back from its JSON once its parts are. -/
theorem readWithin_succ_toJson {n : Nat} {e : Expr} (he : e.Settled)
    (hp : ∀ p ∈ e.parts, readWithin n p.toJson = some p) :
    readWithin (n + 1) e.toJson = some e := by
  cases e with
  | member m =>
    change (do return member (← Member.ofJson? m.toJson)) = some (member m)
    rw [Member.ofJson?_toJson]
    rfl
  | constant v =>
    change some (constant v.collapse) = some (constant v)
    rw [collapse_of_settled v he]
  | compare op left right =>
    have hop : Comparison.ofJson? op.toJson = some op := Comparison.ofToken?_token op
    have hl : readWithin n left.toJson = some left := hp left (by simp [parts])
    have hr : readWithin n right.toJson = some right := hp right (by simp [parts])
    change (do
      return compare (← Comparison.ofJson? op.toJson) (← readWithin n left.toJson)
        (← readWithin n right.toJson)) = some (compare op left right)
    rw [hop, hl, hr]
    rfl
  | and left right =>
    have hl : readWithin n left.toJson = some left := hp left (by simp [parts])
    have hr : readWithin n right.toJson = some right := hp right (by simp [parts])
    change (do return and (← readWithin n left.toJson) (← readWithin n right.toJson)) =
      some (and left right)
    rw [hl, hr]
    rfl
  | or left right =>
    have hl : readWithin n left.toJson = some left := hp left (by simp [parts])
    have hr : readWithin n right.toJson = some right := hp right (by simp [parts])
    change (do return or (← readWithin n left.toJson) (← readWithin n right.toJson)) =
      some (or left right)
    rw [hl, hr]
    rfl
  | not e =>
    have he : readWithin n e.toJson = some e := hp e (by simp [parts])
    change (do return not (← readWithin n e.toJson)) = some (not e)
    rw [he]
    rfl
  | startsWith m text =>
    change (do return startsWith (← Member.ofJson? m.toJson) text) = some (startsWith m text)
    rw [Member.ofJson?_toJson]
    rfl
  | regexp m pattern =>
    change (do return regexp (← Member.ofJson? m.toJson) pattern) = some (regexp m pattern)
    rw [Member.ofJson?_toJson]
    rfl
  | aggregate a argument =>
    have ha : Aggregate.ofJson? (.string a.token) = some a := Aggregate.ofToken?_token a
    cases argument with
    | none =>
      change (do return aggregate (← Aggregate.ofJson? (.string a.token)) none) =
        some (aggregate a none)
      rw [ha]
      rfl
    | some e =>
      have he : readWithin n e.toJson = some e := hp e (by simp [parts])
      change (do
        return aggregate (← Aggregate.ofJson? (.string a.token))
          (← optional? (readWithin n) (some e.toJson))) = some (aggregate a (some e))
      rw [ha, optional?_of_ne_null e.toJson_ne_null, he]
      rfl
  | groupKey => rfl
  | record fields =>
    have hfields : list? (readWithin.readField (readWithin n)) (.array (fieldsToJson fields)) =
        some fields := by
      rw [fieldsToJson_eq_map]
      apply list?_map
      intro m hm
      exact readField_toJson (hp m.2 (List.mem_map_of_mem hm))
    change (do
      return record (← list? (readWithin.readField (readWithin n))
        (.array (fieldsToJson fields)))) = some (record fields)
    rw [hfields]
    rfl

theorem readWithin_toJson {e : Expr} (he : e.Settled) {n : Nat} (hn : e.toJson.depth ≤ n) :
    readWithin n e.toJson = some e := by
  induction e using partsInduction generalizing n with
  | h e ih =>
    cases n with
    | zero => exact absurd e.depth_pos (Nat.not_lt.2 hn)
    | succ n =>
      apply readWithin_succ_toJson he
      intro p hp
      have hd := depth_lt_of_mem_parts hp
      exact ih p hp (he.of_mem_parts hp) (by omega)

theorem ofJson?_toJson {e : Expr} (he : e.Settled) : ofJson? e.toJson = some e :=
  readWithin_toJson he (Nat.le_refl _)

/-- An argument is read back whether or not it is there. -/
theorem optional?_ofOption {o : Option Expr} (ho : ∀ e ∈ o, e.Settled) :
    optional? ofJson? (some (ofOption toJson o)) = some o :=
  Json.optional?_ofOption (fun e _ => e.toJson_ne_null) fun e he => ofJson?_toJson (ho e he)

end Expr

namespace Step

theorem Settled.argument {s : Step} (hs : s.Settled) : ∀ e ∈ s.argument?, e.Settled := by
  cases s with
  | filter e | query e | orderBy e | groupBy e | select e | execute terminal e =>
    rintro e rfl
    exact hs
  | queryString | orderByScore | skip | take =>
    rintro e ⟨⟩

/-- The kind of an operation is never that of a source. -/
theorem ofJson?_toJson {s : Step} (hs : s.Settled) (source : Json) :
    ∃ kind payload, tagged? "op" (s.toJson source) = some (kind, payload) ∧ kind ≠ "source" ∧
      ofJson? kind payload = some (some source, s) := by
  cases s with
  | filter e =>
    have he := Expr.optional?_ofOption (o := e) hs.argument
    refine ⟨_, _, rfl, by simp, ?_⟩
    change (do return (some source, filter (← optional? Expr.ofJson? _))) = _
    rw [he]
    rfl
  | query e =>
    have he := Expr.optional?_ofOption (o := e) hs.argument
    refine ⟨_, _, rfl, by simp, ?_⟩
    change (do return (some source, query (← optional? Expr.ofJson? _))) = _
    rw [he]
    rfl
  | queryString text =>
    have ht : optional? string? (some (ofOption Json.string text)) = some text :=
      Json.optional?_ofOption (by simp) fun _ _ => rfl
    refine ⟨_, _, rfl, by simp, ?_⟩
    change (do return (some source, queryString (← optional? string? _))) = _
    rw [ht]
    rfl
  | orderBy e descending secondary =>
    have he := Expr.optional?_ofOption (o := e) hs.argument
    refine ⟨_, _, rfl, by simp, ?_⟩
    change (do return (some source, orderBy (← optional? Expr.ofJson? _) descending secondary)) = _
    rw [he]
    rfl
  | orderByScore descending secondary => exact ⟨_, _, rfl, by simp, rfl⟩
  | skip n =>
    refine ⟨_, _, rfl, by simp, ?_⟩
    change (do return (some source, skip (← nat? (.nat n)))) = _
    rw [nat?_nat]
    rfl
  | take n =>
    refine ⟨_, _, rfl, by simp, ?_⟩
    change (do return (some source, take (← nat? (.nat n)))) = _
    rw [nat?_nat]
    rfl
  | groupBy e =>
    have he := Expr.optional?_ofOption (o := e) hs.argument
    refine ⟨_, _, rfl, by simp, ?_⟩
    change (do return (some source, groupBy (← optional? Expr.ofJson? _))) = _
    rw [he]
    rfl
  | select e =>
    have he := Expr.optional?_ofOption (o := e) hs.argument
    refine ⟨_, _, rfl, by simp, ?_⟩
    change (do return (some source, select (← optional? Expr.ofJson? _))) = _
    rw [he]
    rfl
  | execute terminal e =>
    have ht : Terminal.ofJson? (.string terminal.token) = some terminal :=
      Terminal.ofToken?_token terminal
    cases e with
    | none =>
      refine ⟨_, _, rfl, by simp, ?_⟩
      change (do return (some source, execute (← Terminal.ofJson? (.string terminal.token)) none)) =
        _
      rw [ht]
      rfl
    | some e =>
      have he : Expr.ofJson? e.toJson = some e := Expr.ofJson?_toJson hs
      refine ⟨_, _, rfl, by simp, ?_⟩
      change (do
        return (some source, execute (← Terminal.ofJson? (.string terminal.token))
          (← optional? Expr.ofJson? (some e.toJson)))) = _
      rw [ht, optional?_of_ne_null e.toJson_ne_null, he]
      rfl

theorem depth_lt_toJson (s : Step) (source : Json) : source.depth < (s.toJson source).depth := by
  cases s with
  | execute terminal e =>
    cases e <;> simp only [toJson, depth, depthMembers] <;> omega
  | _ =>
    simp only [toJson, depth, depthMembers]
    omega

end Step

namespace Query

theorem readWithin_toJson {docType : String} {steps : List Step} (hs : ∀ s ∈ steps, s.Settled)
    {n : Nat} (hn : (toJson ⟨docType, steps⟩).depth ≤ n) :
    readWithin n (toJson ⟨docType, steps⟩) = some ⟨docType, steps⟩ := by
  -- The last operation is the outermost one of the JSON, so the induction takes it off first.
  induction steps using List.reverseRecOn generalizing n with
  | nil =>
    cases n with
    | zero => cases hn
    | succ n => rfl
  | append_singleton steps s ih =>
    have hpush : toJson ⟨docType, steps ++ [s]⟩ = s.toJson (toJson ⟨docType, steps⟩) :=
      toJson_push ⟨docType, steps⟩ s
    rw [hpush] at hn ⊢
    have hd := s.depth_lt_toJson (toJson ⟨docType, steps⟩)
    cases n with
    | zero => omega
    | succ n =>
      obtain ⟨kind, payload, htag, hkind, hstep⟩ :=
        Step.ofJson?_toJson (hs s (by simp)) (toJson ⟨docType, steps⟩)
      have hsource := ih (fun t ht => hs t (by simp [ht])) (n := n) (by omega)
      simp [readWithin, htag, hkind, hstep, required?, hsource, push]

/-- Expressions and queries of any depth are read back from what they are written as, so different
ones are written differently. -/
theorem trees_read_back :
    (∀ e : Expr, e.Settled → Expr.ofJson? e.toJson = some e) ∧
      (∀ q : Query, q.Settled → ofJson? q.toJson = some q) ∧
      (∀ e e' : Expr, e.Settled → e'.Settled → e.toJson = e'.toJson → e = e') ∧
      ∀ q q' : Query, q.Settled → q'.Settled → q.toJson = q'.toJson → q = q' := by
  have hquery (q : Query) (hq : q.Settled) : ofJson? q.toJson = some q :=
    readWithin_toJson hq (Nat.le_refl _)
  refine ⟨fun e he => Expr.ofJson?_toJson he, hquery, fun e e' he he' h => ?_,
    fun q q' hq hq' h => ?_⟩
  · have hread := Expr.ofJson?_toJson he
    rw [h, Expr.ofJson?_toJson he'] at hread
    exact (Option.some.inj hread).symm
  · have hread := hquery q hq
    rw [h, hquery q' hq'] at hread
    exact (Option.some.inj hread).symm

/-- Constants that look like a tree and like an absent argument, and an absent predicate. -/
def lookalikes : Query :=
  ⟨"Robot", [.filter (some (.or (.constant (.object [("kind", .string "group_key")]))
      (.aggregate .sum (some (.constant .null))))), .filter none, .execute .any none]⟩

/-- They are read back, and a constant is written differently from the tree that it looks like. -/
theorem trees_read_back_lookalikes :
    (lookalikes.Settled ∧ ofJson? lookalikes.toJson = some lookalikes) ∧
      (Expr.constant Expr.groupKey.toJson).toJson ≠ Expr.groupKey.toJson := by
  have hq : lookalikes.Settled := by
    simp [lookalikes, Settled, Step.Settled, Expr.Settled, Json.Settled, SettledMembers,
      Members.names]
  have he : (Expr.constant Expr.groupKey.toJson).Settled := by
    simp [Expr.Settled, Expr.toJson, Json.Settled, SettledMembers, Members.names]
  constructor
  · exact ⟨hq, trees_read_back.2.1 lookalikes hq⟩
  · intro h
    cases trees_read_back.2.2.1 _ .groupKey he trivial h

end Query

end SearchQuery
