import SearchQuery.Query.Json
import SearchQuery.Proofs.Settled

/-!
Queries that were decoded are settled, since their constants are: whatever repeats a name is settled
where it is read.
-/

namespace SearchQuery

open Json

namespace Members

theorem nodup_names_insert {members : Members} (h : members.names.Nodup) (name : String)
    (v : Json) : (members.insert name v).names.Nodup := by
  rw [names, names_insert]
  split
  · exact h
  next hn =>
    have hdisjoint : ∀ n ∈ members.map Prod.fst, ∀ m ∈ [name], n ≠ m := by
      intro n hm m hs he
      rw [he, List.mem_singleton.1 hs] at hm
      exact hn hm
    exact List.nodup_append.2 ⟨h, List.nodup_singleton _, hdisjoint⟩

theorem settledMembers_insert {members : Members} (h : SettledMembers members) (name : String)
    (hv : v.Settled) : SettledMembers (members.insert name v) := by
  induction members with
  | nil => exact ⟨hv, h⟩
  | cons m rest ih =>
    obtain ⟨n, w⟩ := m
    rw [insert]
    split
    · exact ⟨hv, h.2⟩
    · exact ⟨h.1, ih h.2⟩

theorem settled_foldl_insert {members : Members} (h : (Json.object members).Settled)
    {entries : List (String × Json)} (he : SettledMembers entries) :
    (Json.object (entries.foldl (fun members (name, value) => Members.insert name value members)
      members)).Settled := by
  induction entries generalizing members with
  | nil => exact h
  | cons m rest ih =>
    obtain ⟨n, v⟩ := m
    have hinsert : (Json.object (members.insert n v)).Settled :=
      ⟨nodup_names_insert h.1 n v, settledMembers_insert h.2 n he.1⟩
    exact ih hinsert he.2

end Members

namespace Json

theorem settledItems_collapse (h : ∀ v ∈ items, v.collapse.Settled) :
    SettledItems (collapseItems items) := by
  induction items with
  | nil => trivial
  | cons v rest ih => exact ⟨h v (.head _), ih fun w hw => h w (.tail _ hw)⟩

theorem settledMembers_collapse {members : Members} (h : ∀ m ∈ members, m.2.collapse.Settled) :
    SettledMembers (collapseMembers members) := by
  induction members with
  | nil => trivial
  | cons m rest ih => exact ⟨h m (.head _), ih fun w hw => h w (.tail _ hw)⟩

theorem settled_collapse (v : Json) : v.collapse.Settled := by
  induction v with
  | null | bool | number | string => trivial
  | array items ih => exact settledItems_collapse ih
  | object members ih =>
    have hempty : (Json.object []).Settled := ⟨List.nodup_nil, trivial⟩
    exact Members.settled_foldl_insert hempty (settledMembers_collapse ih)

theorem required?_eq_some_iff {decode : Json → Option α} {v : Option Json} :
    required? decode v = some a ↔ ∃ j, v = some j ∧ decode j = some a :=
  Option.bind_eq_some_iff

/-- An argument that is given was decoded. -/
theorem decoded_of_optional? {decode : Json → Option α} {v : Option Json}
    (h : optional? decode v = some (some a)) : ∃ j, decode j = some a := by
  unfold optional? at h
  split at h
  · cases h
  · cases h
  next j _ =>
    obtain ⟨b, hb, hba⟩ := Option.map_eq_some_iff.1 h
    cases hba
    exact ⟨j, hb⟩

end Json

namespace Expr

theorem settledFields_of_mapM {read : Json → Option Expr}
    (hr : ∀ {j e}, read j = some e → e.Settled) {items : List Json}
    (h : items.mapM (readWithin.readField read) = some fields) : SettledFields fields := by
  induction items generalizing fields with
  | nil =>
    cases h
    trivial
  | cons j rest ih =>
    rw [List.mapM_cons] at h
    obtain ⟨⟨name, e⟩, hfield, h⟩ := Option.bind_eq_some_iff.1 h
    obtain ⟨tail, htail, h⟩ := Option.bind_eq_some_iff.1 h
    cases h
    obtain ⟨parts, -, hfield⟩ := Option.bind_eq_some_iff.1 hfield
    split at hfield
    · obtain ⟨n, -, hfield⟩ := Option.bind_eq_some_iff.1 hfield
      obtain ⟨x, hx, hfield⟩ := Option.bind_eq_some_iff.1 hfield
      obtain ⟨v, -, hv⟩ := required?_eq_some_iff.1 hx
      cases hfield
      exact ⟨hr hv, ih htail⟩
    · cases hfield

theorem settled_of_readWithin {depth : Nat} (h : readWithin depth j = some e) : e.Settled := by
  induction depth generalizing j e with
  | zero => cases h
  | succ depth ih =>
    have hpart {v e} (he : required? (readWithin depth) v = some e) : e.Settled := by
      obtain ⟨j, -, hj⟩ := required?_eq_some_iff.1 he
      exact ih hj
    rw [readWithin] at h
    obtain ⟨⟨kind, payload⟩, -, h⟩ := Option.bind_eq_some_iff.1 h
    dsimp only at h
    -- One case for each kind, in the order in which they are read.
    split at h
    case h_1 =>
      obtain ⟨m, -, h⟩ := Option.bind_eq_some_iff.1 h
      cases h
      trivial
    case h_2 =>
      obtain ⟨parts, -, h⟩ := Option.bind_eq_some_iff.1 h
      split at h
      · cases h
        exact settled_collapse _
      · cases h
    case h_3 =>
      obtain ⟨parts, -, h⟩ := Option.bind_eq_some_iff.1 h
      split at h
      · obtain ⟨op, -, h⟩ := Option.bind_eq_some_iff.1 h
        obtain ⟨left, hl, h⟩ := Option.bind_eq_some_iff.1 h
        obtain ⟨right, hr, h⟩ := Option.bind_eq_some_iff.1 h
        cases h
        exact ⟨hpart hl, hpart hr⟩
      · cases h
    case h_4 | h_5 =>
      obtain ⟨parts, -, h⟩ := Option.bind_eq_some_iff.1 h
      split at h
      · obtain ⟨left, hl, h⟩ := Option.bind_eq_some_iff.1 h
        obtain ⟨right, hr, h⟩ := Option.bind_eq_some_iff.1 h
        cases h
        exact ⟨hpart hl, hpart hr⟩
      · cases h
    case h_6 =>
      obtain ⟨parts, -, h⟩ := Option.bind_eq_some_iff.1 h
      split at h
      · obtain ⟨operand, ho, h⟩ := Option.bind_eq_some_iff.1 h
        cases h
        have hs : operand.Settled := hpart ho
        exact hs
      · cases h
    case h_7 | h_8 =>
      obtain ⟨parts, -, h⟩ := Option.bind_eq_some_iff.1 h
      split at h
      · obtain ⟨m, -, h⟩ := Option.bind_eq_some_iff.1 h
        obtain ⟨text, -, h⟩ := Option.bind_eq_some_iff.1 h
        cases h
        trivial
      · cases h
    case h_9 =>
      obtain ⟨parts, -, h⟩ := Option.bind_eq_some_iff.1 h
      split at h
      · obtain ⟨function, -, h⟩ := Option.bind_eq_some_iff.1 h
        obtain ⟨argument, ha, h⟩ := Option.bind_eq_some_iff.1 h
        cases h
        cases argument with
        | none => trivial
        | some e =>
          obtain ⟨j, hj⟩ := decoded_of_optional? ha
          have hs : e.Settled := ih hj
          exact hs
      · cases h
    case h_10 =>
      split at h
      · cases h
        trivial
      · cases h
        trivial
      · cases h
    case h_11 =>
      obtain ⟨parts, -, h⟩ := Option.bind_eq_some_iff.1 h
      split at h
      · obtain ⟨fields, hf, h⟩ := Option.bind_eq_some_iff.1 h
        cases h
        obtain ⟨v, -, hv⟩ := required?_eq_some_iff.1 hf
        cases v with
        | array items => exact settledFields_of_mapM ih hv
        | _ => cases hv
      · cases h
    case h_12 => cases h

theorem settled_of_optional? (h : optional? ofJson? v = some argument) :
    ∀ e ∈ argument, e.Settled := by
  rintro e rfl
  obtain ⟨j, hj⟩ := decoded_of_optional? h
  exact settled_of_readWithin hj

end Expr

namespace Step

theorem settled_of_ofJson? (h : ofJson? kind payload = some (source, s)) : s.Settled := by
  unfold ofJson? at h
  split at h
  case h_1 | h_2 | h_8 | h_9 =>
    obtain ⟨parts, -, h⟩ := Option.bind_eq_some_iff.1 h
    split at h
    · obtain ⟨argument, ha, h⟩ := Option.bind_eq_some_iff.1 h
      cases h
      cases argument with
      | none => trivial
      | some e => exact Expr.settled_of_optional? ha e rfl
    · cases h
  case h_4 =>
    obtain ⟨parts, -, h⟩ := Option.bind_eq_some_iff.1 h
    split at h
    · obtain ⟨key, hk, h⟩ := Option.bind_eq_some_iff.1 h
      obtain ⟨descending, -, h⟩ := Option.bind_eq_some_iff.1 h
      obtain ⟨secondary, -, h⟩ := Option.bind_eq_some_iff.1 h
      cases h
      cases key with
      | none => trivial
      | some e => exact Expr.settled_of_optional? hk e rfl
    · cases h
  case h_10 =>
    obtain ⟨parts, -, h⟩ := Option.bind_eq_some_iff.1 h
    split at h
    · obtain ⟨terminal, -, h⟩ := Option.bind_eq_some_iff.1 h
      obtain ⟨predicate, hp, h⟩ := Option.bind_eq_some_iff.1 h
      cases h
      cases predicate with
      | none => trivial
      | some e => exact Expr.settled_of_optional? hp e rfl
    · cases h
  case h_3 | h_6 | h_7 =>
    obtain ⟨parts, -, h⟩ := Option.bind_eq_some_iff.1 h
    split at h
    · obtain ⟨_, -, h⟩ := Option.bind_eq_some_iff.1 h
      cases h
      trivial
    · cases h
  case h_5 =>
    obtain ⟨parts, -, h⟩ := Option.bind_eq_some_iff.1 h
    split at h
    · obtain ⟨descending, -, h⟩ := Option.bind_eq_some_iff.1 h
      obtain ⟨secondary, -, h⟩ := Option.bind_eq_some_iff.1 h
      cases h
      trivial
    · cases h
  case h_11 => cases h

end Step

namespace Query

theorem settled_push {q : Query} (hq : q.Settled) {s : Step} (hs : s.Settled) :
    (q.push s).Settled := by
  intro t ht
  rcases List.mem_append.1 ht with ht | ht
  · exact hq t ht
  · exact List.mem_singleton.1 ht ▸ hs

theorem settled_of_readWithin {depth : Nat} (h : readWithin depth j = some q) : q.Settled := by
  induction depth generalizing j q with
  | zero => cases h
  | succ depth ih =>
    rw [readWithin] at h
    obtain ⟨⟨kind, payload⟩, -, h⟩ := Option.bind_eq_some_iff.1 h
    dsimp only at h
    split at h
    · obtain ⟨parts, -, h⟩ := Option.bind_eq_some_iff.1 h
      split at h
      · obtain ⟨docType, -, h⟩ := Option.bind_eq_some_iff.1 h
        cases h
        intro s hs
        cases hs
      · cases h
    · obtain ⟨⟨before, s⟩, hs, h⟩ := Option.bind_eq_some_iff.1 h
      obtain ⟨q, hq, h⟩ := Option.bind_eq_some_iff.1 h
      obtain ⟨v, -, hv⟩ := required?_eq_some_iff.1 hq
      cases h
      exact settled_push (ih hv) (Step.settled_of_ofJson? hs)

/-- The queries that are read from JSON are settled. -/
theorem settled_of_ofJson? (h : ofJson? j = some q) : q.Settled := settled_of_readWithin h

end Query

end SearchQuery
