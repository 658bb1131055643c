import SearchQuery.Expr.Criteria
import SearchQuery.Facet
import SearchQuery.Extractor

/-!
Grouped projections: each aggregate becomes a column that reads a statistic of a facet. Aggregates
that need the same facet share it, and each facet has a name of its own.
-/

namespace SearchQuery

/-- The base name itself, or the first of `base_n`, `base_n+1`, ... that is not taken, `n` being the
number of names taken; one of the first `n + 1` is always free. -/
def freeName (taken : List String) (base : String) : String :=
  let numbered (i : Nat) := base ++ "_" ++ toString (taken.length + i)
  if base ∈ taken then
    (((List.range (taken.length + 1)).map numbered).find? (· ∉ taken)).getD base
  else base

/-- Adds a facet unless one of the facets can stand for it, and gives the name of its result. -/
def Facet.addTo (f : Facet) (facets : List Facet) : List Facet × String :=
  match facets.find? (·.sharesResultWith f) with
  | some g => (facets, g.name)
  | none =>
    let name := freeName (facets.map Facet.name) f.name
    (facets ++ [f.named name], name)

structure GroupedProjection where
  facets : List Facet
  rows : GroupRows

namespace GroupedProjection

/-- The counts per value of the key, of the documents that pass the filter. -/
def counting (key : String) (filter : Option Criteria) : Facet :=
  ⟨"count", .terms [key] filter none⟩

def statistic : Aggregate → Statistic
  | .count => .count
  | .sum => .total
  | .average => .mean
  | .min => .min
  | .max => .max

/-- The facet that an aggregate needs when documents are grouped by the key field, or all together
when there is none. -/
def facet (names : FieldNames) (key : Option String) (a : Aggregate) (argument : Option Expr) :
    Except Error Facet :=
  match a with
  | .count => do
    let filter ← argument.mapM (Expr.criteria names)
    match key with
    | some k => return counting k filter
    | none => return ⟨"count", .filter (filter.getD .matchAll)⟩
  | _ =>
    match argument with
    | none => .error (.missingArgument (.operand a))
    | some e => do
      let value ← names.fieldOf (.operand a) e
      match key with
      | some k => return ⟨value, .termsStats k value none none⟩
      | none => return ⟨value, .statistical [value] none⟩

def column (names : FieldNames) (key : Option String) (facets : List Facet)
    (name : Option String) : Expr → Except Error (List Facet × Column)
  | .groupKey => .ok (facets, ⟨name, .key⟩)
  | .aggregate a argument => do
    let f ← facet names key a argument
    let (facets, result) := f.addTo facets
    return (facets, ⟨name, .statistic result (statistic a)⟩)
  | e => .error (.unsupported (.groupedColumn e))

/-- The columns of a record, no two of one name. -/
def columns (names : FieldNames) (key : Option String) (facets : List Facet)
    (before : List String) : List (String × Expr) → Except Error (List Facet × List Column)
  | [] => .ok (facets, [])
  | (name, e) :: rest => do
    if name ∈ before then throw (.duplicateMember name)
    let (facets, c) ← column names key facets (some name) e
    let (facets, cs) ← columns names key facets (before ++ [name]) rest
    return (facets, c :: cs)

def valueType : Expr → ValueType
  | .aggregate .count _ => .integer
  | .aggregate .average _ => .double
  | .aggregate _ _ => .number
  | _ => .value

/-- Groups by a field need a facet with buckets, if only to list the groups. -/
def withGroups (key : Option String) (facets : List Facet) : List Facet :=
  match key, facets with
  | some k, [] => [counting k none]
  | _, facets => facets

def ofColumns (key : Option String) (type : ValueType) (facets : List Facet)
    (columns : List Column) : GroupedProjection :=
  let facets := withGroups key facets
  ⟨facets, {
    columns
    type
    grouped := key.isSome
    bucketFacets := (facets.filter (·.body.hasBuckets)).map Facet.name }⟩

def ofExpr (names : FieldNames) (key : Option String) :
    Expr → Except Error GroupedProjection
  | .record fields => do
    let (facets, cs) ← columns names key [] [] fields
    return ofColumns key (.record (fields.map Prod.fst)) facets cs
  | e => do
    let (facets, c) ← column names key [] none e
    return ofColumns key (valueType e) facets [c]

def limited (p : GroupedProjection) (n : Nat) : GroupedProjection :=
  { p with facets := p.facets.map (·.limited n) }

end GroupedProjection

end SearchQuery
