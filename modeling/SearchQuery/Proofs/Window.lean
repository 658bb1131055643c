import SearchQuery.Proofs.Paging

/-!
Pages and terminals as operations on lists: the response to the request of an ungrouped chain is
read as the skips and takes of the chain, one after another, on all hits that were found.
-/

namespace SearchQuery

namespace Expr

/-- The value of a member in a hit. -/
def fieldIn (names : FieldNames) (h : Hit) : Expr → Json
  | .member m => h.field (names.field m)
  | _ => .null

/-- What a projection makes of a hit; of the members of a record that share a name the last one
counts. -/
def valueIn (names : FieldNames) (h : Hit) : Expr → Json
  | .record fields =>
    .object (Members.ofList (fields.map fun (name, e) => (name, e.fieldIn names h)))
  | e => e.fieldIn names h

end Expr

/-- The part of a list that a page leaves. -/
def Step.page (xs : List α) : Step → List α
  | .skip n => xs.drop n
  | .take n => xs.take n
  | _ => xs

/-- What stands for a hit in the result. -/
def Step.item (names : FieldNames) (item : Hit → Json) : Step → Hit → Json
  | .select (some e) => fun h => e.valueIn names h
  | _ => item

def Step.terminal? : Step → Option Terminal
  | .execute terminal _ => some terminal
  | _ => none

/-- The value of an ungrouped chain on the hits that its conditions leave, in the order that it
asks for. -/
def Query.valueOf (names : FieldNames) (q : Query) (found : List Hit) : Json :=
  let item := q.steps.foldl (Step.item names) fun h => h.source.getD .null
  let items := (q.steps.foldl Step.page found).map item
  match q.steps.findSome? Step.terminal? with
  | some terminal => terminal.ofValues items
  | none => .array items

namespace Projection

/-- A record of documents has members only, each in its own field. -/
theorem forall₂_record {columns : List (String × Expr)} {members : List (String × String)}
    (h : columns.mapM (fun (name, e) => do
      let f ← FieldNames.fieldOf names .select e
      return (name, f)) = Except.ok members) :
    List.Forall₂ (fun c m => ∃ member, c.2 = .member member ∧ m = (c.1, names.field member))
      columns members := by
  apply (forall₂_of_mapM h).imp
  intro c m hm
  obtain ⟨f, hf, hm⟩ := bind_eq_ok_iff.1 hm
  obtain ⟨member, he, rfl⟩ := FieldNames.fieldOf_eq_ok_iff.1 hf
  cases hm
  exact ⟨member, he, rfl⟩

theorem record_members {columns : List (String × Expr)} {members : List (String × String)}
    (h : columns.mapM (fun (name, e) => do
      let f ← FieldNames.fieldOf names .select e
      return (name, f)) = Except.ok members) (hit : Hit) :
    members.map (fun (name, f) => (name, hit.field f)) =
      columns.map fun (name, e) => (name, Expr.fieldIn names hit e) := by
  rw [← List.forall₂_eq_eq_eq, List.forall₂_map_left_iff, List.forall₂_map_right_iff]
  apply (forall₂_record h).flip.imp
  rintro m ⟨name, e⟩ ⟨member, rfl, rfl⟩
  rfl

/-- A projection of documents reads each member in its own field. -/
theorem apply_eq_valueIn (h : ofExpr names e = .ok p) (hit : Hit) :
    p.apply hit = e.valueIn names hit := by
  cases e with
  | member m =>
    cases h
    rfl
  | record fields =>
    obtain ⟨members, hm, h⟩ := bind_eq_ok_iff.1 h
    cases h
    exact congrArg (Json.object ∘ Members.ofList) (record_members hm hit)
  | constant | compare | and | or | not | startsWith | regexp | aggregate | groupKey => cases h

end Projection

namespace Draft

theorem Next.hasGroups (h : Next names d s d') (hs : ∀ k, s ≠ .groupBy k)
    (hd : d.stage.hasGroups = false) : d'.stage.hasGroups = false := by
  cases h with
  | filter | query | queryString | orderBy | orderByScore | skip | take => exact hd
  | select | execute | executeSelected => rfl
  | groupBy => exact absurd rfl (hs _)
  | selectGroups hg | takeGroups hg =>
    rw [hg] at hd
    cases hd

/-- Only a key begins groups. -/
theorem Runs.hasGroups (h : Runs names d steps d') (hs : ∀ k, .groupBy k ∉ steps)
    (hd : d.stage.hasGroups = false) : d'.stage.hasGroups = false := by
  induction h with
  | nil => exact hd
  | cons hn _ ih =>
    apply ih
    · intro k hm
      exact hs k (.tail _ hm)
    · apply hn.hasGroups _ hd
      rintro k rfl
      exact hs k (.head _)

theorem Next.page (h : Next names d s d') (hd : d.stage.hasGroups = false) {xs : List α}
    (hx : xs.length ≤ maxCount) : d'.page xs = s.page (d.page xs) := by
  cases h with
  | filter | query | queryString | orderBy | orderByScore | groupBy | select | execute
  | executeSelected | selectGroups => rfl
  | skip => exact (d.page_skip _ hx).symm
  | take => exact (d.page_take _ xs).symm
  | takeGroups hg =>
    rw [hg] at hd
    cases hd

theorem Next.item (h : Next names d s d') (hd : d'.stage.hasGroups = false) :
    d'.stage.projection.apply = s.item names d.stage.projection.apply := by
  cases h with
  | filter hs | query hs | queryString hs | orderBy hs | orderByScore hs | skip | take => rfl
  | select hs hp =>
    funext hit
    exact Projection.apply_eq_valueIn hp hit
  | execute hs | executeSelected hs =>
    rw [hs]
    rfl
  | groupBy | selectGroups | takeGroups => cases hd

theorem Next.terminal? (h : Next names d s d') (hd : d'.stage.hasGroups = false) :
    d'.stage.terminal? = d.stage.terminal?.or s.terminal? := by
  cases h with
  | filter hs | query hs | queryString hs | orderBy hs | orderByScore hs =>
    exact (Option.or_none).symm
  | skip hs | take hs => exact (Option.or_none).symm
  | select hs | execute hs | executeSelected hs =>
    rw [hs]
    rfl
  | groupBy | selectGroups | takeGroups => cases hd

/-- What a chain makes of the hits that are found: its pages cut the list, its projection stands for
each hit, and its terminal takes what is left. -/
theorem Runs.value (h : Runs names d steps d') (hs : ∀ k, .groupBy k ∉ steps)
    (hd : d.stage.hasGroups = false) {found : List Hit} (hf : found.length ≤ maxCount) :
    d'.page found = steps.foldl Step.page (d.page found) ∧
      d'.stage.projection.apply = steps.foldl (Step.item names) d.stage.projection.apply ∧
      d'.stage.terminal? = d.stage.terminal?.or (steps.findSome? Step.terminal?) := by
  induction h with
  | nil => exact ⟨rfl, rfl, Option.or_none.symm⟩
  | @cons d s m rest d' hn hr ih =>
    have hrest : ∀ k, .groupBy k ∉ rest := fun k hm => hs k (.tail _ hm)
    have hfirst : ∀ k, s ≠ .groupBy k := by
      rintro k rfl
      exact hs k (.head _)
    have hm := hn.hasGroups hfirst hd
    obtain ⟨hpage, hitem, hterminal⟩ := ih hrest hm
    refine ⟨?_, ?_, ?_⟩
    · rw [hpage, hn.page hd hf, List.foldl_cons]
    · rw [hitem, hn.item hm, List.foldl_cons]
    · rw [hterminal, hn.terminal? hm, Option.or_assoc, List.findSome?_cons]
      cases s.terminal? <;> rfl

end Draft

namespace Query

/-- Without groups, a response with the page that was asked for is read as the chain's own pages of
all hits that were found, whatever sums of counts the chain has. -/
theorem extract_respond_eq_valueOf {q : Query} {names : FieldNames} (h : q.plan names = .ok p)
    (hg : ∀ k, .groupBy k ∉ q.steps) {found : List Hit} (hf : found.length ≤ maxCount) :
    p.extractor.extract (some (p.request.respond found)) = .ok (q.valueOf names found) := by
  obtain ⟨-, d, hruns, hfinish⟩ := plan_eq_ok_iff.1 h
  have hgroups := hruns.hasGroups hg rfl
  obtain ⟨hpage, hitem, hterminal⟩ := hruns.value hg rfl hf
  have hstart : ({} : Draft).page found = found := rfl
  have hnone : ({} : Draft).stage.terminal? = none := rfl
  rw [Draft.extract_respond hfinish hgroups, Stage.value, hpage, hitem, hterminal, hstart, hnone,
    Option.none_or]
  rfl

/-- Four hits with a name each. -/
def named : List Hit :=
  ["a", "b", "c", "d"].map fun name => { fields := some [("name", .string name)] }

/-- The first name on a page that is cut on both sides of its projection. -/
def firstOnPage : Query :=
  ⟨"Robot", [.take 3, .skip 1, .select (some (.field "name")), .take 9, .skip 1,
    .execute .first none]⟩

/-- How many documents are left by skips that add up to more than the largest count. -/
def countPastEnd : Query := ⟨"Robot", [.skip maxCount, .skip 10, .execute .count none]⟩

theorem extract_respond_eq_valueOf_named :
    (∃ p, firstOnPage.plan ⟨⟨Member.name, id⟩, ""⟩ = .ok p ∧
      p.extractor.extract (some (p.request.respond named)) = .ok (.string "c")) ∧
    ∃ p, countPastEnd.plan ⟨⟨Member.name, id⟩, ""⟩ = .ok p ∧
      p.extractor.extract (some (p.request.respond named)) = .ok (.nat 0) := by
  have hn : named.length ≤ maxCount := by decide
  constructor
  · have hg : ∀ k, .groupBy k ∉ firstOnPage.steps := by simp [firstOnPage]
    exact ⟨_, rfl, extract_respond_eq_valueOf rfl hg hn⟩
  · have hg : ∀ k, .groupBy k ∉ countPastEnd.steps := by simp [countPastEnd]
    exact ⟨_, rfl, extract_respond_eq_valueOf rfl hg hn⟩

end Query

end SearchQuery
