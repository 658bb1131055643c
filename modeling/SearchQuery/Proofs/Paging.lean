import SearchQuery.Proofs.Collection

/-!
A plan answers a chain as if its conditions and orderings came before all pages.
-/

namespace SearchQuery

namespace Draft

/-- The page of a draft out of all documents that were found. -/
def page (d : Draft) (xs : List α) : List α := cut d.limit (xs.drop (d.start.getD 0))

theorem page_take (d : Draft) (n : Nat) (xs : List α) :
    (d.page xs).take n = (d.take n).page xs := by
  simp only [page, Draft.take, cut]
  cases d.limit with
  | none => rfl
  | some limit => rw [List.take_take, tighten, Nat.min_comm]

/-- Starts end at the largest count, where no documents are left. -/
theorem page_skip (d : Draft) (n : Nat) {xs : List α} (hx : xs.length ≤ maxCount) :
    (d.page xs).drop n = (d.skip n).page xs := by
  have hdrop : xs.drop (min (d.start.getD 0 + n) maxCount) = xs.drop (d.start.getD 0 + n) := by
    rcases Nat.le_total (d.start.getD 0 + n) maxCount with h | h
    · rw [Nat.min_eq_left h]
    · rw [Nat.min_eq_right h, List.drop_eq_nil_of_le hx, List.drop_eq_nil_of_le (Nat.le_trans hx h)]
  simp only [page, skip, Option.getD_some, hdrop, cut]
  cases d.limit with
  | none => exact List.drop_drop
  | some limit => rw [Option.map_some, List.drop_take, List.drop_drop]

end Draft

/-- What is left of an operation when conditions and orderings are taken from the chain. -/
def Step.rest : Step → List Step
  | .execute terminal _ => [.execute terminal none]
  | s@(.skip _) | s@(.take _) | s@(.select _) => [s]
  | _ => []

/-- The keys of a chain when each new ordering comes before all earlier ones. -/
def Step.sortKeys (names : FieldNames) (keys : List SortKey) (s : Step) : List SortKey :=
  match s.ordering? names with
  | some (k, secondary) => if secondary then keys ++ [k] else k :: keys
  | none => keys

namespace Collection

variable (c : Collection α)

/-- The result of a chain when all of its conditions and then its orderings come first. -/
def evaluateAhead (names : FieldNames) (steps : List Step) (docs : List α) : Json :=
  let kept := docs.filter fun x => steps.all (Step.selects c.reading names (c.document x))
  let keys := steps.foldl (Step.sortKeys names) []
  c.result ((steps.flatMap Step.rest).foldl (c.perform names) (.documents (c.sorted keys kept) []))

/-- What a draft stands for when all documents that are found are given. -/
def Stands (found : List α) (d : Draft) (p : Progress α) : Prop :=
  match d.stage with
  | .documents => p = .documents (d.page found) []
  | .selected projection => p = .values ((d.page found).map (c.project projection))
  | .executed terminal projection =>
    p = .value (terminal.ofValues ((d.page found).map (c.project projection)))
  | .grouping _ | .grouped .. => True

variable {c} {found : List α}

theorem stands_documents (hd : d.stage = .documents) :
    c.Stands found d p ↔ p = .documents (d.page found) [] := by
  rw [Stands, hd]

theorem stands_selected (hd : d.stage = .selected projection) :
    c.Stands found d p ↔ p = .values ((d.page found).map (c.project projection)) := by
  rw [Stands, hd]

theorem stands_executed (hd : d.stage = .executed terminal projection) :
    c.Stands found d p ↔
      p = .value (terminal.ofValues ((d.page found).map (c.project projection))) := by
  rw [Stands, hd]

theorem kept_execute (names : FieldNames) (terminal : Terminal) (docs : List α) :
    c.kept names (.execute terminal none) docs = docs :=
  List.filter_eq_self.2 fun _ _ => rfl

theorem stands_next (hf : found.length ≤ maxCount) (h : Draft.Next names d s d')
    (hp : c.Stands found d p) : c.Stands found d' (s.rest.foldl (c.perform names) p) := by
  cases h with
  | filter | query | queryString | orderBy | orderByScore => exact hp
  | @skip n hd =>
    rcases hd with hd | ⟨projection, hd⟩
    · rw [stands_documents hd] at hp
      rw [hp, stands_documents (d := d.skip n) hd, ← d.page_skip n hf]
      rfl
    · rw [stands_selected hd] at hp
      rw [hp, stands_selected (d := d.skip n) hd, ← d.page_skip n hf, List.map_drop]
      rfl
  | @take n hd =>
    rcases hd with hd | ⟨projection, hd⟩
    · rw [stands_documents hd] at hp
      rw [hp, stands_documents (d := d.take n) hd, ← d.page_take]
      rfl
    · rw [stands_selected hd] at hp
      rw [hp, stands_selected (d := d.take n) hd, ← d.page_take, List.map_take]
      rfl
  | groupBy | selectGroups | takeGroups => trivial
  | select hd hs =>
    rw [stands_documents hd] at hp
    rw [hp, stands_selected rfl, Step.rest, List.foldl_cons, List.foldl_nil, perform, hs]
    rfl
  | execute hd =>
    rw [stands_documents hd] at hp
    rw [hp, stands_executed rfl, Step.rest, List.foldl_cons, List.foldl_nil, perform, kept_execute]
    rfl
  | executeSelected hd =>
    rw [stands_selected hd] at hp
    rw [hp, stands_executed rfl]
    rfl

theorem stands_runs (hf : found.length ≤ maxCount) (h : Draft.Runs names d steps d')
    (hp : c.Stands found d p) :
    c.Stands found d' ((steps.flatMap Step.rest).foldl (c.perform names) p) := by
  induction h generalizing p with
  | nil => exact hp
  | cons hn _ ih =>
    rw [List.flatMap_cons, List.foldl_append]
    exact ih (stands_next hf hn hp)

end Collection

namespace Draft

theorem Next.sort (h : Next names d s d') : d'.sort = s.sortKeys names d.sort := by
  cases h <;> rfl

theorem Runs.sort (h : Runs names d steps d') :
    d'.sort = steps.foldl (Step.sortKeys names) d.sort := by
  induction h with
  | nil => rfl
  | cons hn _ ih => rw [ih, hn.sort, List.foldl_cons]

end Draft

theorem length_cut (limit : Option Nat) (xs : List α) :
    (cut limit xs).length = (limit.map (min xs.length)).getD xs.length := by
  cases limit with
  | none => rfl
  | some n => rw [cut, List.length_take, Nat.min_comm]; rfl

/-- The first one of a page is still there when no more than it is asked for. -/
theorem head?_cut_tighten {limit : Option Nat} (h : limit ≠ some 0) (xs : List α) :
    (cut (some (tighten limit 1)) xs).head? = (cut limit xs).head? := by
  cases limit with
  | none => cases xs <;> rfl
  | some n =>
    cases n with
    | zero => exact absurd rfl h
    | succ n =>
      rw [cut, tighten, Nat.min_eq_right (by omega)]
      cases xs <;> rfl

/-- The response of an engine that finds some hits: their number, and the page that is asked for. -/
def Request.respond (q : Request) (found : List Hit) : Response :=
  { hits := some {
      total := found.length
      hits := some (cut q.size (found.drop (q.start.getD 0))) } }

namespace Stage

/-- Whether the operations so far have formed groups. -/
def hasGroups : Stage → Bool
  | grouping _ | grouped .. => true
  | documents | selected _ | executed .. => false

def projection : Stage → Projection
  | selected p | executed _ p => p
  | documents | grouping _ | grouped .. => .source

def terminal? : Stage → Option Terminal
  | executed terminal _ => some terminal
  | documents | selected _ | grouping _ | grouped .. => none

/-- The value of a page of hits. -/
def value (s : Stage) (hits : List Hit) : Json :=
  let items := hits.map s.projection.apply
  match s.terminal? with
  | some terminal => terminal.ofValues items
  | none => .array items

end Stage

namespace Draft

/-- The number of hits on the page, out of that of all that were found. -/
theorem size_respond (d : Draft) (x : PageValue) (hs : x.skip = d.start.getD 0)
    (hl : x.limit = d.limit) (q : Request) (found : List Hit) :
    x.size (q.respond found) = (d.page found).length := by
  rw [page, length_cut, List.length_drop, PageValue.size, hs, hl]
  cases d.limit <;> rfl

theorem extract_first (d : Draft) (docType : String) (p : Projection) (type : ValueType)
    (found : List Hit) :
    (PageValue.first p type (d.start.getD 0) d.limit).extract
        ({ d.pageRequest docType p with size := some (tighten d.limit 1) }.respond found) =
      Terminal.first.ofValues ((d.page found).map p.apply) := by
  change (if d.limit = some 0 then Json.null
    else ((cut (some (tighten d.limit 1)) (found.drop (d.start.getD 0))).head?.map p.apply).getD
      .null) = _
  by_cases hl : d.limit = some 0
  · rw [if_pos hl, page, hl]
    rfl
  · rw [if_neg hl, head?_cut_tighten hl, Terminal.ofValues, List.head?_map]
    rfl

theorem extract_count (d : Draft) (p : Projection) (q : Request) (found : List Hit) :
    (PageValue.count (d.start.getD 0) d.limit).extract (q.respond found) =
      Terminal.count.ofValues ((d.page found).map p.apply) := by
  have hs := d.size_respond (.count (d.start.getD 0) d.limit) rfl rfl q found
  rw [Terminal.ofValues, List.length_map]
  exact congrArg Json.nat hs

theorem extract_any (d : Draft) (p : Projection) (q : Request) (found : List Hit) :
    (PageValue.any (d.start.getD 0) d.limit).extract (q.respond found) =
      Terminal.any.ofValues ((d.page found).map p.apply) := by
  have hs := d.size_respond (.any (d.start.getD 0) d.limit) rfl rfl q found
  rw [Terminal.ofValues, PageValue.extract, hs]
  cases d.page found <;> rfl

/-- The response to the request of a plan is read as what the page of its draft holds. -/
theorem extract_respond (h : finish d source docType = .ok p) (hg : d.stage.hasGroups = false)
    (found : List Hit) :
    p.extractor.extract (some (p.request.respond found)) = .ok (d.stage.value (d.page found)) := by
  rw [finish] at h
  split at h
  next hd =>
    cases h
    rw [hd]
    rfl
  next projection hd =>
    cases h
    rw [hd]
    rfl
  next terminal projection hd =>
    rw [hd]
    cases terminal with
    | first =>
      cases h
      exact congrArg Except.ok (d.extract_first docType projection _ found)
    | count =>
      cases h
      exact congrArg Except.ok (d.extract_count projection _ found)
    | any =>
      cases h
      exact congrArg Except.ok (d.extract_any projection _ found)
  · cases h
  next hd =>
    rw [hd] at hg
    cases hg

/-- Groups that are not projected have no plan. -/
theorem hasGroups_of_finish (h : finish d source docType = .ok p)
    (hg : ∀ g limit, d.stage ≠ .grouped g limit) : d.stage.hasGroups = false := by
  cases hd : d.stage with
  | documents | selected | executed => rfl
  | grouping key =>
    rw [finish, hd] at h
    cases h
  | grouped g limit => exact absurd hd (hg g limit)

theorem finish_fields (h : finish d source docType = .ok p) :
    p.request.fields = d.stage.projection.fields := by
  rw [finish] at h
  split at h
  next hd =>
    cases h
    rw [hd]
    rfl
  next hd =>
    cases h
    rw [hd]
    rfl
  next terminal projection hd =>
    rw [hd]
    cases terminal with
    | first | count | any =>
      cases h
      rfl
  · cases h
  next hd =>
    cases h
    rw [hd]
    rfl

theorem page_map (d : Draft) (f : α → β) (xs : List α) : d.page (xs.map f) = (d.page xs).map f := by
  rw [page, page, ← List.map_drop]
  cases d.limit with
  | none => rfl
  | some n => exact List.map_take.symm

end Draft

namespace Collection

variable {c : Collection α} {found : List α}

theorem answer_eq_respond (c : Collection α) (q : Request) (docs : List α) :
    c.answer q docs = q.respond ((c.found q docs).map (c.hit q.fields)) := by
  rw [answer, Request.respond, List.length_map, ← List.map_drop]
  cases q.size with
  | none => rfl
  | some n => rw [cut, cut, List.map_take]

/-- Progress without groups results in the value of the page. -/
theorem Stands.result (hp : c.Stands found d progress) (hg : d.stage.hasGroups = false) :
    c.result progress =
      d.stage.value (d.page (found.map (c.hit d.stage.projection.fields))) := by
  rw [Draft.page_map, Stage.value, List.map_map]
  rw [Stands] at hp
  split at hp
  next hd =>
    rw [hp, hd]
    rfl
  next hd =>
    rw [hp, hd]
    rfl
  next hd =>
    rw [hp, hd]
    rfl
  next hd =>
    rw [hd] at hg
    cases hg
  next hd =>
    rw [hd] at hg
    cases hg

/-- The response to the request of a plan is read as what its draft stands for. -/
theorem extract_answer {docs : List α} (h : d.finish source docType = .ok p)
    (hp : c.Stands (c.found p.request docs) d progress) (hg : d.stage.hasGroups = false) :
    p.extractor.extract (some (c.answer p.request docs)) = .ok (c.result progress) := by
  rw [answer_eq_respond, Draft.extract_respond h hg, Draft.finish_fields h, hp.result hg]

end Collection

def Step.pages : Step → Bool
  | .skip _ | .take _ => true
  | _ => false

/-- A condition or an ordering, which looks at more than one page. -/
def Step.looksFurther : Step → Bool
  | .filter _ | .query _ | .queryString _ | .orderBy .. | .orderByScore .. | .execute _ (some _) =>
    true
  | _ => false

/-- A condition or an ordering comes after a page. -/
def Query.Late (q : Query) : Prop :=
  ∃ first s rest, q.steps = first ++ s :: rest ∧ first.any Step.pages = true ∧ s.looksFurther = true

namespace Draft

theorem isPaged_skip (d : Draft) (n : Nat) : (d.skip n).isPaged = true := rfl

theorem isPaged_take (d : Draft) (n : Nat) : (d.take n).isPaged = true := by
  simp [isPaged, Draft.take]

theorem Next.isPaged (h : Next names d s d') (hd : d'.stage = .documents) :
    d.stage = .documents ∧ d'.isPaged = (d.isPaged || s.pages) := by
  cases h with
  | filter hs | query hs | queryString hs | orderBy hs | orderByScore hs =>
    exact ⟨hs, (Bool.or_false _).symm⟩
  | skip => exact ⟨hd, by rw [isPaged_skip, Step.pages, Bool.or_true]⟩
  | take => exact ⟨hd, by rw [isPaged_take, Step.pages, Bool.or_true]⟩
  | groupBy | select | execute | executeSelected | selectGroups | takeGroups => cases hd

theorem Runs.isPaged (h : Runs names d steps d') (hd : d'.stage = .documents) :
    d.stage = .documents ∧ d'.isPaged = (d.isPaged || steps.any Step.pages) := by
  induction h with
  | nil => exact ⟨hd, by simp⟩
  | cons hn _ ih =>
    obtain ⟨hm, hr⟩ := ih hd
    obtain ⟨hs, hp⟩ := hn.isPaged hm
    exact ⟨hs, by rw [hr, hp, List.any_cons, Bool.or_assoc]⟩

/-- Paged, projected and counted documents are never grouped. -/
def Flat (d : Draft) : Prop :=
  d.stage = .documents ∧ d.isPaged = true ∨ (∃ p, d.stage = .selected p) ∨
    ∃ terminal p, d.stage = .executed terminal p

theorem Next.flat (h : Next names d s d') (hd : d.Flat) : d'.Flat := by
  cases h with
  | filter hs | query hs | queryString hs | orderBy hs | orderByScore hs => exact hd
  | skip hs =>
    rcases hs with hs | hs
    · exact .inl ⟨hs, isPaged_skip ..⟩
    · exact .inr (.inl hs)
  | take hs =>
    rcases hs with hs | hs
    · exact .inl ⟨hs, isPaged_take ..⟩
    · exact .inr (.inl hs)
  | groupBy hs hp => simp [Flat, hs, hp] at hd
  | select => exact .inr (.inl ⟨_, rfl⟩)
  | execute | executeSelected => exact .inr (.inr ⟨_, _, rfl⟩)
  | selectGroups hs | takeGroups hs => simp [Flat, hs] at hd

theorem Runs.flat (h : Runs names d steps d') (hd : d.Flat) : d'.Flat := h.keeps Next.flat hd

theorem Runs.flat_of_late {q : Query} (h : Runs names {} q.steps d) (hl : q.Late) : d.Flat := by
  obtain ⟨first, s, rest, hsteps, hpages, hs⟩ := hl
  rw [hsteps] at h
  obtain ⟨m, hfirst, hrest⟩ := runs_append_iff.1 h
  have hpaged (hm : m.stage = .documents) : m.isPaged = true := by
    rw [(hfirst.isPaged hm).2, hpages, Bool.or_true]
  cases hrest with
  | cons hn hr =>
    apply hr.flat
    cases hn with
    | filter hm | query hm | queryString hm | orderBy hm | orderByScore hm =>
      exact .inl ⟨hm, hpaged hm⟩
    | execute => exact .inr (.inr ⟨_, _, rfl⟩)
    | skip | take | groupBy | select | executeSelected | selectGroups | takeGroups => cases hs

end Draft

namespace Collection

/-- A plan finds the documents that pass all conditions, in the order of the keys it collected. -/
theorem found_finish {d : Draft} (c : Collection α) (hd : d.WellFormed names)
    (h : d.finish source docType = .ok p) (docs : List α) :
    c.found p.request docs =
      c.sorted d.sort (docs.filter fun x => d.selects c.reading (c.document x)) := by
  simp only [found, (Draft.finish_request h).2.2.1, hd.finds h]

theorem length_found (c : Collection α) (q : Request) (docs : List α) : (c.found q docs).length =
    (docs.filter fun x => Engine.finds c.reading (c.document x) q.toJson).length :=
  List.length_mergeSort _

/-- Without groups, the response to a plan's request is read as if all conditions and orderings of
the chain came first. -/
theorem extract_plan {q : Query} {names : FieldNames} (c : Collection α) (hq : q.Settled)
    (h : q.plan names = .ok p)
    (hg : ∀ d g limit, Draft.Runs names {} q.steps d → d.stage ≠ .grouped g limit)
    {docs : List α} (hd : docs.length ≤ maxCount) :
    p.extractor.extract (some (c.answer p.request docs)) =
      .ok (c.evaluateAhead names q.steps docs) := by
  obtain ⟨-, d, hruns, hfinish⟩ := Query.plan_eq_ok_iff.1 h
  have hwf := hruns.wellFormed hq (Draft.wellFormed_empty names)
  have hselects (x : α) : d.selects c.reading (c.document x) =
      q.steps.all (Step.selects c.reading names (c.document x)) := hruns.selects hq _ _
  have hlength : (c.found p.request docs).length ≤ maxCount := by
    rw [c.length_found]
    exact Nat.le_trans (List.length_filter_le ..) hd
  have hstart : c.Stands (c.found p.request docs) {} (.documents (c.found p.request docs) []) :=
    (stands_documents rfl).2 rfl
  have hstands := stands_runs hlength hruns hstart
  have hgroups := Draft.hasGroups_of_finish hfinish fun g limit => hg d g limit hruns
  rw [extract_answer hfinish hstands hgroups, evaluateAhead,
    c.found_finish hwf hfinish, hruns.sort]
  simp only [hselects]

/-- Documents with a single field, which is true or false; no key orders them. -/
def flags : Collection Bool where
  reading := .literal
  document b := .ofMembers [("flag", .bool b)] (by simp [Json.isNull, Json.Settled])
  hit _ _ := {}
  le _ _ _ := true
  le_total _ _ _ := rfl
  le_trans _ _ _ _ _ _ := rfl

end Collection

namespace Query

variable {q : Query} {names : FieldNames}

/-- A condition or an ordering after a page is answered as if it came before all pages, so it acts
on the page exactly when that makes no difference. -/
theorem late_extract_iff (hq : q.Settled) (h : q.plan names = .ok p) (hl : q.Late)
    (c : Collection α) {docs : List α} (hd : docs.length ≤ maxCount) :
    p.extractor.extract (some (c.answer p.request docs)) =
        .ok (c.evaluateAhead names q.steps docs) ∧
      (p.extractor.extract (some (c.answer p.request docs)) = .ok (c.evaluate names q.steps docs) ↔
        c.evaluateAhead names q.steps docs = c.evaluate names q.steps docs) := by
  have he := c.extract_plan hq h (fun d g limit hr hs => by
    have hf := hr.flat_of_late hl
    simp [Draft.Flat, hs] at hf) hd
  exact ⟨he, by rw [he, Except.ok.injEq]⟩

/-- How many of the documents on a page of one have the flag. -/
def countOnPage : Query := ⟨"Robot", [.take 1, .execute .count (some (.field "flag"))]⟩

theorem late_countOnPage : countOnPage.Late := ⟨[.take 1], _, [], rfl, rfl, rfl⟩

theorem late_extract_iff_count : ∃ p, countOnPage.plan ⟨⟨Member.name, id⟩, ""⟩ = .ok p ∧
    (p.extractor.extract (some (Collection.flags.answer p.request [false, true])) =
        .ok (Collection.flags.evaluate ⟨⟨Member.name, id⟩, ""⟩ countOnPage.steps [false, true]) ↔
      Collection.flags.evaluateAhead ⟨⟨Member.name, id⟩, ""⟩ countOnPage.steps [false, true] =
        Collection.flags.evaluate ⟨⟨Member.name, id⟩, ""⟩ countOnPage.steps [false, true]) := by
  have hq : countOnPage.Settled := by
    intro s hs
    rcases List.mem_cons.1 hs with rfl | hs
    · trivial
    · cases List.mem_singleton.1 hs
      trivial
  have hd : [false, true].length ≤ maxCount := by decide
  exact ⟨_, rfl, (late_extract_iff hq rfl late_countOnPage Collection.flags hd).2⟩

/-- The first document has no flag, but the second one is counted. -/
theorem countOnPage_off_page : ∃ p, countOnPage.plan ⟨⟨Member.name, id⟩, ""⟩ = .ok p ∧
    countOnPage.Late ∧
    p.extractor.extract (some (Collection.flags.answer p.request [false, true])) = .ok (.nat 1) ∧
    Collection.flags.evaluate ⟨⟨Member.name, id⟩, ""⟩ countOnPage.steps [false, true] = .nat 0 := by
  refine ⟨_, rfl, late_countOnPage, ?_, rfl⟩
  exact congrArg (fun total => Except.ok (Json.nat (min (total - 0) 1)))
    ((Collection.flags.length_found _ [false, true]).trans rfl)

end Query

end SearchQuery
