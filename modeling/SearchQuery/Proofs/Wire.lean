import SearchQuery.Criteria.Json
import SearchQuery.Proofs.Conjunction

/-!
Criteria as the engine reads them. Those that are well formed are read back as they were written: no
bound of a range overwrites another one.
-/

namespace SearchQuery

open Json

namespace Members

theorem get?_append (a b : Members) (name : String) :
    get? name (a ++ b) = (a.get? name).or (b.get? name) := by
  induction a with
  | nil => rfl
  | cons m rest ih =>
    obtain ⟨n, v⟩ := m
    rw [List.cons_append, get?, get?]
    split
    · rfl
    · exact ih

theorem insert_of_notMem {members : Members} (h : name ∉ members.names) :
    members.insert name v = members ++ [(name, v)] := by
  induction members with
  | nil => rfl
  | cons m rest ih =>
    obtain ⟨n, w⟩ := m
    rw [names, List.map_cons, List.mem_cons, not_or] at h
    rw [insert, if_neg (Ne.symm h.1), ih h.2, List.cons_append]

theorem foldl_insert (members : Members) {entries : List (String × Json)}
    (h : (members.names ++ entries.map Prod.fst).Nodup) :
    entries.foldl (fun members (name, value) => members.insert name value) members =
      members ++ entries := by
  induction entries generalizing members with
  | nil => simp
  | cons m rest ih =>
    obtain ⟨n, v⟩ := m
    have hn : n ∉ members.names := fun hm => (List.nodup_append.1 h).2.2 n hm n (.head _) rfl
    have he : members.insert n v = members ++ [(n, v)] := insert_of_notMem hn
    change rest.foldl _ (members.insert n v) = _
    rw [he, ih]
    · simp
    · simpa [names] using h

/-- Inserting members of different names overwrites none. -/
theorem ofList_of_nodup {entries : List (String × Json)} (h : (entries.map Prod.fst).Nodup) :
    ofList entries = entries :=
  foldl_insert [] h

end Members

/-- The value of a member, when there is an object that has it. -/
def Json.member? (name : String) : Json → Option Json
  | .object members => Members.get? name members
  | _ => none

namespace Bound

def member (b : Bound) : String × Json := (b.kind.token, b.value)

def ofMember? (m : String × Json) : Option Bound := (BoundKind.ofToken? m.1).map (⟨·, m.2⟩)

theorem mapM_ofMember?_member (bounds : List Bound) :
    (bounds.map member).mapM ofMember? = some bounds := by
  induction bounds with
  | nil => rfl
  | cons b rest ih => simp [member, ofMember?, BoundKind.ofToken?_token, ih]

theorem token_injective : Function.Injective BoundKind.token := by
  intro a b h
  have he := congrArg BoundKind.ofToken? h
  rwa [BoundKind.ofToken?_token, BoundKind.ofToken?_token, Option.some.injEq] at he

/-- No bound of a range is lost when they become the members of an object. -/
theorem Distinct.ofList_members (h : Distinct bounds) :
    Members.ofList (bounds.map member) = bounds.map member := by
  apply Members.ofList_of_nodup
  rw [List.map_map]
  have ht := h.1.map token_injective
  rwa [List.map_map] at ht

end Bound

namespace Criteria

/-- The criteria of one clause of a `bool`, none when it is left out. -/
def clauseOf (clauses : List (String × List Criteria)) (name : String) : List Criteria :=
  (clauses.lookup name).getD []

mutual

/-- Reads criteria in the form that the engine takes them. -/
def ofJson? : Json → Option Criteria
  | .object [(name, .object members)] =>
    match name, members with
    | "match_all", _ => some .matchAll
    | "term", [(field, v)] => some (.term field v)
    | "terms", [(field, .array vs)] => some (.terms field vs)
    | "range", [(field, .object bounds)] => (bounds.mapM Bound.ofMember?).map (.range field)
    | "exists", [("field", .string field)] => some (.present field)
    | "missing", [("field", .string field)] => some (.missing field)
    | "prefix", [(field, .string text)] => some (.startsWith field text)
    | "regexp", [(field, .string pattern)] => some (.regexp field pattern)
    | "query_string", [("query", .string text)] => some (.queryString text)
    | "bool", clauses => do
      let clauses ← ofClauses? clauses
      return .bool (clauseOf clauses "must") (clauseOf clauses "should")
        (clauseOf clauses "must_not")
    | _, _ => none
  | _ => none

def ofClauses? : List (String × Json) → Option (List (String × List Criteria))
  | [] => some []
  | (name, .array items) :: rest => do
    let cs ← ofItems? items
    let clauses ← ofClauses? rest
    return (name, cs) :: clauses
  | _ :: _ => none

def ofItems? : List Json → Option (List Criteria)
  | [] => some []
  | v :: rest => do
    let c ← ofJson? v
    let cs ← ofItems? rest
    return c :: cs

end

theorem isEmpty_allToJson (cs : List Criteria) : (allToJson cs).isEmpty = cs.isEmpty := by
  cases cs <;> rfl

theorem ofClauses?_clause_append (n : String) {cs : List Criteria}
    (hi : ofItems? (allToJson cs) = some cs) (hr : ofClauses? rest = some clauses) :
    ofClauses? (clause n (allToJson cs) ++ rest) =
      some (if cs.isEmpty then clauses else (n, cs) :: clauses) := by
  rw [clause, isEmpty_allToJson]
  split
  next => simpa using hr
  next => simp [ofClauses?, hi, hr]

theorem ofJson?_bool {must should mustNot : List Criteria}
    (hm : ofItems? (allToJson must) = some must)
    (hs : ofItems? (allToJson should) = some should)
    (hn : ofItems? (allToJson mustNot) = some mustNot) :
    ofJson? (single "bool" (body (bool must should mustNot))) =
      some (bool must should mustNot) := by
  have hc := ofClauses?_clause_append "must" hm
    (ofClauses?_clause_append "should" hs (ofClauses?_clause_append "must_not" hn
      (show ofClauses? [] = some [] from rfl)))
  rw [List.append_nil, ← List.append_assoc] at hc
  simp only [single, body, ofJson?, hc, Option.bind_eq_bind, Option.bind_some]
  cases must <;> cases should <;> cases mustNot <;> rfl

mutual

/-- Well formed criteria are read back. -/
theorem ofJson?_single : ∀ c : Criteria, c.WellFormed → ofJson? (single c.name c.body) = some c
  | .matchAll, _ | .term .., _ | .terms .., _ | .present _, _ | .missing _, _ | .startsWith .., _
  | .regexp .., _ | .queryString _, _ => rfl
  | .range field bounds, h => by
    have hm : bounds.map (fun b => (b.kind.token, b.value)) = bounds.map Bound.member := rfl
    simp only [name, body, single, hm, Bound.Distinct.ofList_members h, ofJson?,
      Bound.mapM_ofMember?_member, Option.map_some]
  | .bool must should mustNot, h => ofJson?_bool (ofItems?_allToJson must h.2.1)
    (ofItems?_allToJson should h.2.2.1) (ofItems?_allToJson mustNot h.2.2.2)

theorem ofItems?_allToJson : ∀ cs : List Criteria, AllWellFormed cs →
    ofItems? (allToJson cs) = some cs
  | [], _ => rfl
  | c :: rest, h => by
    rw [allToJson, ofItems?, ofJson?_single c h.1, ofItems?_allToJson rest h.2]
    rfl

end

end Criteria

end SearchQuery
