import SearchQuery.Proofs.Requested
import SearchQuery.Proofs.Rows
import SearchQuery.Proofs.Window

/-!
Rows of records. No two members of a record of groups have the same name, but those of a record of
documents may: a row has each name once, where it comes first, with the value that is given last.
-/

namespace SearchQuery

namespace Members

/-- Each name that was given, in the order of the first times, with the value of the last time. -/
def Latest (given : List (String × Json)) (members : Members) : Prop :=
  members.names = (given.map Prod.fst).eraseDups ∧
    ∀ name, members.get? name = get? name given.reverse

theorem eraseDups_concat (names : List String) (name : String) :
    (names ++ [name]).eraseDups =
      if name ∈ names.eraseDups then names.eraseDups else names.eraseDups ++ [name] := by
  rw [List.eraseDups_append]
  by_cases h : name ∈ names <;> simp [List.removeAll, h, List.eraseDups_cons]

theorem latest_ofList (given : List (String × Json)) : (ofList given).Latest given := by
  refine ⟨?_, get?_ofList given⟩
  induction given using List.reverseRecOn with
  | nil => rfl
  | append_singleton given m ih =>
    rw [ofList_concat, names, names_insert, List.map_append, List.map_singleton, eraseDups_concat,
      ← ih]
    rfl

theorem ofList_eq_self_iff {given : List (String × Json)} :
    ofList given = given ↔ (given.map Prod.fst).Nodup := by
  constructor
  · intro h
    have hnames := (latest_ofList given).1
    rw [h, names] at hnames
    rw [hnames]
    exact Projection.nodup_eraseDups _
  · exact ofList_of_nodup

end Members

/-- What a row is made of: a hit, or a group with its term, which the group of all documents lacks. -/
inductive Origin where
  | hit (h : Hit)
  | group (term : Option Json)

namespace Origin

/-- What is read for a member of a record: a field of the hit, the key of the group, or what the
response has for an aggregate under the name of the facet that was requested for it. -/
inductive Gives (names : FieldNames) (q : Query) (facets : List Facet) (r : Response) :
    Origin → Expr → Json → Prop
  | field : Gives names q facets r (.hit h) (.member m) (h.field (names.field m))
  | key : Gives names q facets r (.group term) .groupKey (term.getD .null)
  | statistic (hk : .groupBy (some k) ∈ q.steps) (hkey : Draft.groupKey names k = .ok key)
    (hf : GroupedProjection.facet names key a argument = .ok f) (hg : g ∈ facets)
    (hs : g.body = f.body.limitedTo limit ∨ g.body.Equal (f.body.limitedTo limit)) :
    Gives names q facets r (.group term) (.aggregate a argument)
      (a.valueIn (r.facets.bind (Members.get? g.name)) term)

/-- The row that a record makes of a hit or of a group. It has all that the members of the record
are read as, unless two of them have the same name. -/
def Makes (names : FieldNames) (q : Query) (facets : List Facet) (r : Response)
    (columns : List (String × Expr)) (o : Origin) (row : Json) : Prop :=
  ∃ vs members, List.Forall₂ (o.Gives names q facets r) (columns.map Prod.snd) vs ∧
    row = .object members ∧ Members.Latest ((columns.map Prod.fst).zip vs) members ∧
    (members = (columns.map Prod.fst).zip vs ↔ (columns.map Prod.fst).Nodup)

theorem makes_ofList {columns : List (String × Expr)} {o : Origin}
    (h : List.Forall₂ (o.Gives names q facets r) (columns.map Prod.snd) vs) :
    o.Makes names q facets r columns
      (.object (Members.ofList ((columns.map Prod.fst).zip vs))) := by
  have hnames : ((columns.map Prod.fst).zip vs).map Prod.fst = columns.map Prod.fst := by
    have hlength := h.length_eq
    rw [List.length_map] at hlength
    apply List.map_fst_zip
    rw [List.length_map]
    exact Nat.le_of_eq hlength
  refine ⟨vs, _, h, rfl, Members.latest_ofList _, ?_⟩
  rw [Members.ofList_eq_self_iff, hnames]

end Origin

namespace Extractor

/-- What the rows of a response are made of, in their order. -/
def origins (r : Response) : Extractor → List Origin
  | hits _ => r.found.map .hit
  | page x => (cut x.limit r.found).map .hit
  | rows x => (x.rowTerms r).map .group

/-- The value that rows are given as: all of them, or what a terminal makes of them. -/
def ofRows (rows : List Json) : Extractor → Json
  | hits _ | .rows _ => .array rows
  | page x => x.terminal.ofValues rows

end Extractor

variable {columns : List (String × Expr)}

namespace Projection

/-- A record of documents has members only. -/
theorem record_spec (h : ofExpr names (.record columns) = .ok p) :
    ∃ members, p = .record members ∧ members.map Prod.fst = columns.map Prod.fst ∧
      List.Forall₂ (fun c m => ∃ member, c.2 = .member member ∧ m.2 = names.field member)
        columns members := by
  obtain ⟨members, hm, h⟩ := bind_eq_ok_iff.1 h
  cases h
  have hfields := forall₂_record hm
  refine ⟨members, rfl, ?_, ?_⟩
  · rw [← List.forall₂_eq_eq_eq, List.forall₂_map_left_iff, List.forall₂_map_right_iff]
    apply hfields.flip.imp
    rintro m c ⟨member, -, rfl⟩
    rfl
  · apply hfields.imp
    rintro c m ⟨member, hc, rfl⟩
    exact ⟨member, hc, rfl⟩

/-- A hit becomes the record of its fields. -/
theorem makes_apply (h : ofExpr names (.record columns) = .ok p) (q : Query)
    (facets : List Facet) (r : Response) (hit : Hit) :
    Origin.Makes names q facets r columns (.hit hit) (p.apply hit) := by
  obtain ⟨members, rfl, hnames, hfields⟩ := record_spec h
  have hgives : List.Forall₂ (Origin.Gives names q facets r (.hit hit)) (columns.map Prod.snd)
      (members.map fun m => hit.field m.2) := by
    rw [List.forall₂_map_left_iff, List.forall₂_map_right_iff]
    apply hfields.imp
    rintro c m ⟨member, hc, hm⟩
    rw [hc, hm]
    exact .field
  have hrow := Origin.makes_ofList hgives
  rwa [← hnames, List.zip_map'] at hrow

theorem valueType_record (h : ofExpr names (.record columns) = .ok p) (docType : String) :
    p.valueType docType = .record (columns.map Prod.fst) := by
  obtain ⟨members, rfl, hnames, -⟩ := record_spec h
  rw [valueType, hnames]

end Projection

namespace GroupedProjection

theorem Lowers.gives (hl : Lowers names key projected p) {cell : Cell}
    (h : Reads names key p.facets e cell) {q : Query} {k : Expr}
    (hk : .groupBy (some k) ∈ q.steps) (hkey : Draft.groupKey names k = .ok key)
    (limit : Option Nat) (r : Response) (term : Option Json) :
    Origin.Gives names q (p.limitedTo limit).facets r (.group term) e (cell.value r term) := by
  cases h with
  | groupKey => exact .key
  | @aggregate a argument f g hf hg hs =>
    have hmem : ⟨g.name, g.body.limitedTo limit⟩ ∈ (p.limitedTo limit).facets := by
      rw [facets_limitedTo]
      exact List.mem_map_of_mem hg
    have hsize : g.body.size? = f.body.size? := (hl.size? hg).trans (size?_facet hf).symm
    rw [Cell.value_statistic]
    exact .statistic (g := ⟨g.name, g.body.limitedTo limit⟩) hk hkey hf hmem
      (hs.limitedTo hsize limit)

/-- No two columns of a record of groups have the same name. -/
theorem record_spec (h : ofExpr names key (.record columns) = .ok p) :
    p.rows.type = .record (columns.map Prod.fst) ∧ (columns.map Prod.fst).Nodup ∧
      p.rows.columns.map (fun c => c.name.getD "") = columns.map Prod.fst := by
  obtain ⟨⟨facets, cs⟩, hc, h⟩ := bind_eq_ok_iff.1 h
  cases h
  obtain ⟨-, hnodup, hr⟩ := columns_spec hc
  exact ⟨rfl, hnodup List.nodup_nil, names_of_columns hr⟩

/-- A group becomes the record of its columns. -/
theorem makes_row (h : ofExpr names key (.record columns) = .ok p) {q : Query} {k : Expr}
    (hk : .groupBy (some k) ∈ q.steps) (hkey : Draft.groupKey names k = .ok key)
    (limit : Option Nat) (r : Response) (term : Option Json) :
    Origin.Makes names q (p.limitedTo limit).facets r columns (.group term)
      (p.rows.row r term) := by
  obtain ⟨htype, -, hnames⟩ := record_spec h
  have hgives : List.Forall₂ (Origin.Gives names q (p.limitedTo limit).facets r (.group term))
      (columns.map Prod.snd) (p.rows.columns.map fun c => c.cell.value r term) := by
    have hl := lowers_ofExpr h
    have hreads := hl.reads
    rw [List.forall₂_map_right_iff] at hreads
    rw [List.forall₂_map_right_iff]
    exact hreads.imp fun _ _ hc => hl.gives hc hk hkey limit r term
  have hrow := Origin.makes_ofList hgives
  rw [← hnames, List.zip_map'] at hrow
  rwa [GroupRows.row, htype]

end GroupedProjection

namespace Draft

/-- The documents or the groups of a stage are projected by `e`. -/
inductive Projects (names : FieldNames) (q : Query) (e : Expr) : Stage → Prop
  | selected (hp : Projection.ofExpr names e = .ok p) : Projects names q e (.selected p)
  | executed (hp : Projection.ofExpr names e = .ok p) : Projects names q e (.executed terminal p)
  | grouped {limit : Option Nat} (hk : .groupBy (some k) ∈ q.steps)
    (hkey : groupKey names k = .ok key) (hp : GroupedProjection.ofExpr names key e = .ok g) :
    Projects names q e (.grouped g limit)

theorem Next.projects (h : Next names d s d') (hd : Projects names q e d.stage) :
    Projects names q e d'.stage := by
  cases h with
  | filter | query | queryString | orderBy | orderByScore | skip | take => exact hd
  | groupBy hs | select hs | execute hs | selectGroups hs =>
    rw [hs] at hd
    cases hd
  | executeSelected hs =>
    rw [hs] at hd
    cases hd with
    | selected hp => exact .executed hp
  | takeGroups hs =>
    rw [hs] at hd
    cases hd with
    | grouped hk hkey hp => exact .grouped hk hkey hp

theorem Next.grouping (h : Next names d s d') (hd : d'.stage = .grouping key) :
    ∃ k, s = .groupBy (some k) ∧ groupKey names k = .ok key := by
  cases h with
  | groupBy _ _ hk =>
    cases hd
    exact ⟨_, rfl, hk⟩
  | filter hs | query hs | queryString hs | orderBy hs | orderByScore hs =>
    cases hs.symm.trans hd
  | skip hs | take hs =>
    rcases hs with hs | ⟨p, hs⟩
    · cases hs.symm.trans hd
    · cases hs.symm.trans hd
  | select | execute | executeSelected | selectGroups | takeGroups => cases hd

/-- Groups that wait for their projection have a key of the chain. -/
theorem Runs.grouping (h : Runs names d steps d') (hd : d'.stage = .grouping key) :
    d.stage = .grouping key ∨
      ∃ k, .groupBy (some k) ∈ steps ∧ groupKey names k = .ok key := by
  induction h with
  | nil => exact .inl hd
  | cons hn _ ih =>
    rcases ih hd with hm | ⟨k, hk, hkey⟩
    · obtain ⟨k, rfl, hkey⟩ := hn.grouping hm
      exact .inr ⟨k, .head _, hkey⟩
    · exact .inr ⟨k, .tail _ hk, hkey⟩

/-- What a chain selects is projected in the end. -/
theorem Runs.projects_of_mem {q : Query} (h : Runs names {} q.steps d)
    (hs : .select (some e) ∈ q.steps) : Projects names q e d.stage := by
  obtain ⟨first, rest, hsteps⟩ := List.append_of_mem hs
  obtain ⟨m, hfirst, hrest⟩ := runs_append_iff.1 (hsteps ▸ h)
  cases hrest with
  | cons hn hr =>
    apply hr.keeps Next.projects
    cases hn with
    | select _ hp => exact .selected hp
    | selectGroups hm hp =>
      rcases hfirst.grouping hm with hstart | ⟨k, hk, hkey⟩
      · cases hstart
      · exact .grouped (hsteps ▸ List.mem_append_left _ hk) hkey hp

theorem Next.hasGroups_of_hasGroups (h : Next names d s d') (hd : d.stage.hasGroups = true) :
    d'.stage.hasGroups = true := by
  cases h with
  | filter | query | queryString | orderBy | orderByScore | skip | take => exact hd
  | groupBy | selectGroups | takeGroups => rfl
  | select hs | execute hs | executeSelected hs =>
    rw [hs] at hd
    cases hd

/-- Groups are never given up. -/
theorem Runs.hasGroups_of_mem (h : Runs names d steps d') (hk : .groupBy k ∈ steps) :
    d'.stage.hasGroups = true := by
  induction h with
  | nil => cases hk
  | cons hn hr ih =>
    rcases List.mem_cons.1 hk with rfl | hm
    · apply hr.keeps Next.hasGroups_of_hasGroups
      cases hn
      rfl
    · exact ih hm

end Draft

theorem head?_cut {limit : Option Nat} (h : limit ≠ some 0) (xs : List α) :
    (cut limit xs).head? = xs.head? := by
  cases limit with
  | none => rfl
  | some n =>
    cases n with
    | zero => exact absurd rfl h
    | succ n => cases xs <;> rfl

namespace PageValue

theorem extract_first_eq (p : Projection) (type : ValueType) (skip : Nat) (limit : Option Nat)
    (r : Response) :
    (first p type skip limit).extract r =
      Terminal.first.ofValues ((cut limit r.found).map p.apply) := by
  change (if limit = some 0 then Json.null else (r.found.head?.map p.apply).getD .null) = _
  rw [Terminal.ofValues, List.head?_map]
  split
  next hl => rw [hl]; rfl
  next hl => rw [head?_cut hl]

end PageValue

theorem forall₂_map_map {R : β → γ → Prop} {f : α → β} {g : α → γ} (h : ∀ a, R (f a) (g a))
    (xs : List α) : List.Forall₂ R (xs.map f) (xs.map g) := by
  rw [List.forall₂_map_left_iff, List.forall₂_map_right_iff, List.forall₂_same]
  exact fun a _ => h a

namespace Query

variable {q : Query} {names : FieldNames}

/-- A record that is projected makes a row of each hit or group. The names of groups are all
different; of documents, a member is lost when a later one has its name. -/
theorem record_rows (h : q.plan names = .ok p) (hs : .select (some (.record columns)) ∈ q.steps)
    (ht : p.extractor.type = .record labels) (r : Response) :
    labels = columns.map Prod.fst ∧
      (∃ rows, p.extractor.extract (some r) = .ok (p.extractor.ofRows rows) ∧
        List.Forall₂ (Origin.Makes names q p.request.facets r columns) (p.extractor.origins r)
          rows) ∧
      ((∃ k, .groupBy k ∈ q.steps) → labels.Nodup) := by
  obtain ⟨-, d, hruns, hfinish⟩ := plan_eq_ok_iff.1 h
  have hprojects := hruns.projects_of_mem hs
  have hgroups : (∃ k, .groupBy k ∈ q.steps) → d.stage.hasGroups = true := by
    rintro ⟨k, hk⟩
    exact hruns.hasGroups_of_mem hk
  rw [Draft.finish] at hfinish
  generalize d.stage = stage at hprojects hgroups hfinish
  cases hprojects with
  | selected hp =>
    cases hfinish
    have hlabels := (Projection.valueType_record hp q.docType).symm.trans ht
    refine ⟨(ValueType.record.inj hlabels).symm, ⟨_, rfl, ?_⟩,
      fun hk => (Bool.false_ne_true (hgroups hk)).elim⟩
    exact forall₂_map_map (Projection.makes_apply hp q _ r) r.found
  | @executed _ terminal hp =>
    cases terminal with
    | first =>
      cases hfinish
      have hlabels := (Projection.valueType_record hp q.docType).symm.trans ht
      refine ⟨(ValueType.record.inj hlabels).symm,
        ⟨_, congrArg Except.ok (PageValue.extract_first_eq ..), ?_⟩,
        fun hk => (Bool.false_ne_true (hgroups hk)).elim⟩
      exact forall₂_map_map (Projection.makes_apply hp q _ r) _
    | count | any =>
      cases hfinish
      cases ht
  | @grouped k key g limit hk hkey hp =>
    cases hfinish
    obtain ⟨htype, hnodup, -⟩ := GroupedProjection.record_spec hp
    have hrows := GroupedProjection.rows_limitedTo limit g
    rw [GroupedProjection.limitedTo] at hrows
    rw [hrows] at ht ⊢
    obtain rfl := ValueType.record.inj (htype.symm.trans ht)
    refine ⟨rfl, ⟨_, congrArg Except.ok (g.rows.extract_eq r), ?_⟩, fun _ => hnodup⟩
    exact forall₂_map_map (GroupedProjection.makes_row hp hk hkey limit r) _

/-- Two fields under one name. -/
def sameName : Query :=
  ⟨"Robot", [.select (some (.record [("A", .field "name"), ("A", .field "cost")]))]⟩

/-- The key of a group and the number of robots in it under one name. -/
def sameNameOfGroup : Query :=
  ⟨"Robot", [.groupBy (some (.field "zone")),
    .select (some (.record [("A", .groupKey), ("A", .aggregate .count none)]))]⟩

def oneRobot : Response :=
  { hits := some { total := 1, hits := some [
    { fields := some [("name", .string "c"), ("cost", .nat 5)] }] } }

/-- Robots per zone, and the sum of a field that is called `count`. -/
def numbersOfZones : Query :=
  ⟨"Robot", [.groupBy (some (.field "zone")), .select (some (.record [("zone", .groupKey),
    ("n", .aggregate .count none), ("s", .aggregate .sum (some (.field "count")))]))]⟩

/-- Two fields of one name leave one member; three columns of groups leave three. -/
theorem record_rows_sameName :
    (∃ p, sameName.plan ⟨⟨Member.name, id⟩, ""⟩ = .ok p ∧
      p.extractor.type = .record ["A", "A"] ∧
      p.extractor.extract (some oneRobot) = .ok (.array [.object [("A", .nat 5)]]) ∧
      List.Forall₂ (Origin.Makes ⟨⟨Member.name, id⟩, ""⟩ sameName p.request.facets oneRobot
        [("A", .field "name"), ("A", .field "cost")]) (oneRobot.found.map .hit)
        [.object [("A", .nat 5)]]) ∧
    ∃ p rows, numbersOfZones.plan ⟨⟨Member.name, id⟩, ""⟩ = .ok p ∧
      p.extractor.type = .record ["zone", "n", "s"] ∧ ["zone", "n", "s"].Nodup ∧
      p.extractor.extract (some zoneResponse) = .ok (.array rows) ∧
      rows = [.object [("zone", .string "a"), ("n", .nat 3), ("s", .null)],
        .object [("zone", .string "b"), ("n", .nat 1), ("s", .nat 7)],
        .object [("zone", .string "c"), ("n", .nat 0), ("s", .nat 2)]] ∧
      List.Forall₂ (Origin.Makes ⟨⟨Member.name, id⟩, ""⟩ numbersOfZones p.request.facets
        zoneResponse [("zone", .groupKey), ("n", .aggregate .count none),
          ("s", .aggregate .sum (some (.field "count")))])
        [.group (some (.string "a")), .group (some (.string "b")), .group (some (.string "c"))]
        rows := by
  constructor
  · have h : sameName.plan ⟨⟨Member.name, id⟩, ""⟩ = .ok _ := rfl
    obtain ⟨-, ⟨rows, hrows, hmakes⟩, -⟩ := record_rows h (.head _) rfl oneRobot
    obtain rfl : rows = [.object [("A", .nat 5)]] :=
      Json.array.inj (Except.ok.inj (hrows.symm.trans rfl))
    exact ⟨_, rfl, rfl, hrows, hmakes⟩
  · have h : numbersOfZones.plan ⟨⟨Member.name, id⟩, ""⟩ = .ok _ := rfl
    obtain ⟨-, ⟨rows, hrows, hmakes⟩, hnodup⟩ :=
      record_rows h (.tail _ (.head _)) rfl zoneResponse
    exact ⟨_, rows, rfl, rfl, hnodup ⟨_, .head _⟩, hrows,
      Json.array.inj (Except.ok.inj (hrows.symm.trans rfl)), hmakes⟩

/-- The first field is not in the row, though groups are refused such a record. -/
theorem sameName_loses_member :
    (∃ p, sameName.plan ⟨⟨Member.name, id⟩, ""⟩ = .ok p ∧
      p.extractor.type = .record ["A", "A"] ∧
      p.extractor.extract (some oneRobot) = .ok (.array [.object [("A", .nat 5)]])) ∧
    sameNameOfGroup.plan ⟨⟨Member.name, id⟩, ""⟩ = .error (.duplicateMember "A") :=
  ⟨⟨_, rfl, rfl, rfl⟩, rfl⟩

end Query

end SearchQuery
