import SearchQuery.Grouping
import SearchQuery.Projection
import SearchQuery.Query.Missing
import SearchQuery.Request

/-!
Drafts of a search: what the operations of a chain amount to when they are taken in the order they
apply, and which operation may follow which.
-/

namespace SearchQuery

/-- How far a chain has come: documents may still be filtered and ordered, were projected, or were
turned into a single value; groups wait for their projection, or have one. -/
inductive Stage where
  | documents
  | selected (p : Projection)
  | executed (t : Terminal) (p : Projection)
  | grouping (key : Option String)
  | grouped (p : GroupedProjection) (limit : Option Nat)

/-- What the operations so far amount to; a page starts after `start` documents. -/
structure Draft where
  filters : List Criteria := []
  queries : List Criteria := []
  sort : List SortKey := []
  start : Option Nat := none
  limit : Option Nat := none
  stage : Stage := .documents

/-- The largest count of documents, where sums of counts end. -/
def maxCount : Nat := Nat.pow 2 64 - 1

def tighten (limit : Option Nat) (n : Nat) : Nat :=
  match limit with
  | none => n
  | some m => min m n

namespace Draft

/-- A primary ordering goes before the orderings so far, a secondary one after them. -/
def order (d : Draft) (key : SortKey) (secondary : Bool) : Draft :=
  { d with sort := if secondary then d.sort ++ [key] else key :: d.sort }

/-- Skipping moves the start and takes from an earlier limit. -/
def skip (d : Draft) (n : Nat) : Draft :=
  { d with start := some (min (d.start.getD 0 + n) maxCount), limit := d.limit.map (· - n) }

def take (d : Draft) (n : Nat) : Draft := { d with limit := some (tighten d.limit n) }

def isPaged (d : Draft) : Bool := d.start.isSome || d.limit.isSome

/-- A constant key makes a single group, which has no key field. -/
def groupKey (names : FieldNames) : Expr → Except Error (Option String)
  | .member m => .ok (some (names.field m))
  | .constant _ => .ok none
  | e => .error (.unsupported (.groupKey e))

/-- Documents that are neither projected nor grouped may be followed by every operation. -/
def onDocuments (names : FieldNames) (d : Draft) : Step → Except Error Draft
  | .filter predicate => do
    let c ← (← Argument.predicate.ofOption predicate).criteria names
    return { d with filters := d.filters ++ [c] }
  | .query predicate => do
    let c ← (← Argument.predicate.ofOption predicate).criteria names
    return { d with queries := d.queries ++ [c] }
  | .queryString text => do
    let text ← Argument.text.ofOption text
    return { d with queries := d.queries ++ [.queryString text] }
  | .orderBy key descending secondary => do
    let field ← names.fieldOf .orderBy (← Argument.key.ofOption key)
    return d.order ⟨field, descending⟩ secondary
  | .orderByScore descending secondary => return d.order (.relevance descending) secondary
  | .skip n => return d.skip n
  | .take n => return d.take n
  | .groupBy key =>
    if d.isPaged then .error (.unsupported .groupByAfterPaging)
    else do
      let key ← groupKey names (← Argument.key.ofOption key)
      return { d with stage := .grouping key }
  | .select projection => do
    let p ← Projection.ofExpr names (← Argument.projection.ofOption projection)
    return { d with stage := .selected p }
  | .execute terminal predicate => do
    let cs ← predicate.toList.mapM (Expr.criteria names)
    return { d with filters := d.filters ++ cs, stage := .executed terminal .source }

/-- Projected documents may be paged, and turned into a single value. -/
def onSelected (d : Draft) (p : Projection) : Step → Except Error Draft
  | .skip n => .ok (d.skip n)
  | .take n => .ok (d.take n)
  | .execute terminal none => .ok { d with stage := .executed terminal p }
  | s@(.execute _ (some _)) => .error (.unsupported (.predicateAfterSelect s))
  | s => .error (.unsupported (.afterSelect s))

/-- Groups have to be projected. -/
def onGrouping (names : FieldNames) (d : Draft) (key : Option String) : Step → Except Error Draft
  | .select projection => do
    let p ← GroupedProjection.ofExpr names key (← Argument.projection.ofOption projection)
    return { d with stage := .grouped p none }
  | .take _ => .error (.unsupported .takeBeforeSelect)
  | .groupBy _ => .error (.unsupported .nestedGroupBy)
  | s => .error (.unsupported (.onGrouped s))

/-- The rows of groups may only be limited. -/
def onGrouped (d : Draft) (p : GroupedProjection) (limit : Option Nat) :
    Step → Except Error Draft
  | .take n => .ok { d with stage := .grouped p (some (tighten limit n)) }
  | .groupBy _ => .error (.unsupported .nestedGroupBy)
  | .select _ => .error (.unsupported .selectAfterGrouped)
  | s => .error (.unsupported (.onGrouped s))

/-- One more operation; nothing follows a terminal. -/
def step (names : FieldNames) (d : Draft) (s : Step) : Except Error Draft :=
  match d.stage with
  | .documents => d.onDocuments names s
  | .selected p => d.onSelected p s
  | .executed .. => .error (.unsupported (.afterTerminal s))
  | .grouping key => d.onGrouping names key s
  | .grouped p limit => d.onGrouped p limit s

end Draft

end SearchQuery
