import SearchQuery.Expr.Basic

/-!
Queries: a chain of operations on the documents of one type, in the order they apply. An argument
that was not given is kept as absent and is reported when the query is planned.
-/

namespace SearchQuery

/-- Operations that turn the documents of a query into a single value. -/
inductive Terminal where
  | first
  | count
  | any
deriving DecidableEq

def Terminal.name : Terminal → String
  | .first => "First"
  | .count => "Count"
  | .any => "Any"

/-- One operation of a chain. A `filter` decides which documents are kept, a `query` and a
`queryString` also rank them; a secondary ordering breaks ties of the ordering before it. -/
inductive Step where
  | filter (predicate : Option Expr)
  | query (predicate : Option Expr)
  | queryString (text : Option String)
  | orderBy (key : Option Expr) (descending secondary : Bool)
  | orderByScore (descending secondary : Bool)
  | skip (count : Nat)
  | take (count : Nat)
  | groupBy (key : Option Expr)
  | select (projection : Option Expr)
  | execute (terminal : Terminal) (predicate : Option Expr)

def Step.name : Step → String
  | .filter _ => "Where"
  | .query _ => "Query"
  | .queryString _ => "QueryString"
  | .orderBy _ _ secondary => if secondary then "ThenBy" else "OrderBy"
  | .orderByScore _ secondary => if secondary then "ThenByScore" else "OrderByScore"
  | .skip _ => "Skip"
  | .take _ => "Take"
  | .groupBy _ => "GroupBy"
  | .select _ => "Select"
  | .execute terminal _ => terminal.name

structure Query where
  docType : String
  steps : List Step

namespace Query

def source (docType : String) : Query := ⟨docType, []⟩

def push (q : Query) (s : Step) : Query := ⟨q.docType, q.steps ++ [s]⟩

/-- The name of the outermost operation. -/
def name (q : Query) : String := (q.steps.getLast?.map Step.name).getD "Source"

/-- The names of all operations, the source first. -/
def names (q : Query) : List String := "Source" :: q.steps.map Step.name

theorem name_push (q : Query) (s : Step) : (q.push s).name = s.name := by
  simp [push, name]

end Query

end SearchQuery
