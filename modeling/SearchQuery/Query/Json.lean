import SearchQuery.Query.Basic
import SearchQuery.Expr.Json

/-!
Queries as JSON: each operation is an object tagged by `op` that holds the query it applies to under
`source`, so the outermost operation is the last one.
-/

namespace SearchQuery

open Json

namespace Terminal

def token : Terminal → String
  | first => "first"
  | count => "count"
  | any => "any"

def ofToken? : String → Option Terminal
  | "first" => some first
  | "count" => some count
  | "any" => some any
  | _ => none

theorem ofToken?_token (t : Terminal) : ofToken? t.token = some t := by
  cases t <;> rfl

def ofJson? (j : Json) : Option Terminal := j.string? >>= ofToken?

end Terminal

namespace Step

/-- The operation applied to a query that is JSON already. -/
def toJson (source : Json) : Step → Json
  | filter predicate =>
    .object [("op", .string "where"), ("source", source),
      ("predicate", .ofOption Expr.toJson predicate)]
  | query predicate =>
    .object [("op", .string "query"), ("source", source),
      ("predicate", .ofOption Expr.toJson predicate)]
  | queryString text =>
    .object [("op", .string "query_string"), ("source", source), ("text", .ofOption .string text)]
  | orderBy key descending secondary =>
    .object [("op", .string "order_by"), ("source", source), ("key", .ofOption Expr.toJson key),
      ("descending", .bool descending), ("then", .bool secondary)]
  | orderByScore descending secondary =>
    .object [("op", .string "order_by_score"), ("source", source),
      ("descending", .bool descending), ("then", .bool secondary)]
  | skip count => .object [("op", .string "skip"), ("source", source), ("count", .nat count)]
  | take count => .object [("op", .string "take"), ("source", source), ("count", .nat count)]
  | groupBy key =>
    .object [("op", .string "group_by"), ("source", source), ("key", .ofOption Expr.toJson key)]
  | select projection =>
    .object [("op", .string "select"), ("source", source),
      ("projection", .ofOption Expr.toJson projection)]
  | execute terminal none =>
    .object [("op", .string "execute"), ("source", source), ("terminal", .string terminal.token)]
  | execute terminal (some predicate) =>
    .object [("op", .string "execute"), ("source", source), ("terminal", .string terminal.token),
      ("predicate", predicate.toJson)]

/-- Reads an operation of the given kind and the JSON of the query it applies to. -/
def ofJson? (kind : String) (payload : Json) : Option (Option Json × Step) := do
  match kind with
  | "where" =>
    let [source, predicate] ← record? ["source", "predicate"] payload | none
    return (source, filter (← optional? Expr.ofJson? predicate))
  | "query" =>
    let [source, predicate] ← record? ["source", "predicate"] payload | none
    return (source, query (← optional? Expr.ofJson? predicate))
  | "query_string" =>
    let [source, text] ← record? ["source", "text"] payload | none
    return (source, queryString (← optional? string? text))
  | "order_by" =>
    let [source, key, descending, secondary] ←
      record? ["source", "key", "descending", "then"] payload | none
    return (source, orderBy (← optional? Expr.ofJson? key)
      (← withDefault? false bool? descending) (← withDefault? false bool? secondary))
  | "order_by_score" =>
    let [source, descending, secondary] ← record? ["source", "descending", "then"] payload | none
    return (source, orderByScore (← withDefault? false bool? descending)
      (← withDefault? false bool? secondary))
  | "skip" =>
    let [source, count] ← record? ["source", "count"] payload | none
    return (source, skip (← required? nat? count))
  | "take" =>
    let [source, count] ← record? ["source", "count"] payload | none
    return (source, take (← required? nat? count))
  | "group_by" =>
    let [source, key] ← record? ["source", "key"] payload | none
    return (source, groupBy (← optional? Expr.ofJson? key))
  | "select" =>
    let [source, projection] ← record? ["source", "projection"] payload | none
    return (source, select (← optional? Expr.ofJson? projection))
  | "execute" =>
    let [source, terminal, predicate] ← record? ["source", "terminal", "predicate"] payload | none
    return (source, execute (← required? Terminal.ofJson? terminal)
      (← optional? Expr.ofJson? predicate))
  | _ => none

end Step

namespace Query

def toJson (q : Query) : Json :=
  q.steps.foldl Step.toJson (.object [("op", .string "source"), ("doc_type", .string q.docType)])

theorem toJson_push (q : Query) (s : Step) : (q.push s).toJson = s.toJson q.toJson := by
  simp [push, toJson]

/-- Reads a query of a value that nests no deeper than `depth`. -/
def readWithin (depth : Nat) (j : Json) : Option Query :=
  match depth with
  | 0 => none
  | depth + 1 => do
    let (kind, payload) ← tagged? "op" j
    if kind = "source" then
      let [docType] ← record? ["doc_type"] payload | none
      return source (← required? string? docType)
    else
      let (source, step) ← Step.ofJson? kind payload
      return (← required? (readWithin depth) source).push step

def ofJson? (j : Json) : Option Query := readWithin j.depth j

end Query

end SearchQuery
