import SearchQuery.Expr.Basic
import SearchQuery.Json.Decode
import SearchQuery.Json.Reader

/-!
Expressions as JSON: an object tagged by `kind`, its members in a fixed order. An absent argument of
an aggregate is left out.
-/

namespace SearchQuery

open Json

namespace Member

def toJson (m : Member) : Json := .object [("path", .strings m.path)]

def ofJson? (j : Json) : Option Member := do
  let [path] ← record? ["path"] j | none
  return ⟨← required? (list? string?) path⟩

def shape : Shape := .record [("path", .any)]

end Member

namespace Comparison

def token : Comparison → String
  | eq => "eq"
  | ne => "ne"
  | gt => "gt"
  | ge => "ge"
  | lt => "lt"
  | le => "le"

def ofToken? : String → Option Comparison
  | "eq" => some eq
  | "ne" => some ne
  | "gt" => some gt
  | "ge" => some ge
  | "lt" => some lt
  | "le" => some le
  | _ => none

theorem ofToken?_token (c : Comparison) : ofToken? c.token = some c := by
  cases c <;> rfl

def toJson (c : Comparison) : Json := .string c.token

def ofJson? (j : Json) : Option Comparison := j.string? >>= ofToken?

end Comparison

namespace Aggregate

def token : Aggregate → String
  | count => "count"
  | sum => "sum"
  | average => "average"
  | min => "min"
  | max => "max"

def ofToken? : String → Option Aggregate
  | "count" => some count
  | "sum" => some sum
  | "average" => some average
  | "min" => some min
  | "max" => some max
  | _ => none

theorem ofToken?_token (a : Aggregate) : ofToken? a.token = some a := by
  cases a <;> rfl

def ofJson? (j : Json) : Option Aggregate := j.string? >>= ofToken?

end Aggregate

namespace Expr

mutual

def toJson : Expr → Json
  | member m => .object [("kind", .string "member"), ("path", .strings m.path)]
  | constant value => .object [("kind", .string "constant"), ("value", value)]
  | compare op left right =>
    .object [("kind", .string "compare"), ("op", op.toJson), ("left", left.toJson),
      ("right", right.toJson)]
  | and left right =>
    .object [("kind", .string "and"), ("left", left.toJson), ("right", right.toJson)]
  | or left right =>
    .object [("kind", .string "or"), ("left", left.toJson), ("right", right.toJson)]
  | not operand => .object [("kind", .string "not"), ("operand", operand.toJson)]
  | startsWith m text =>
    .object [("kind", .string "prefix"), ("member", m.toJson), ("prefix", .string text)]
  | regexp m pattern =>
    .object [("kind", .string "regexp"), ("member", m.toJson), ("pattern", .string pattern)]
  | aggregate function none =>
    .object [("kind", .string "aggregate"), ("aggregate", .string function.token)]
  | aggregate function (some argument) =>
    .object [("kind", .string "aggregate"), ("aggregate", .string function.token),
      ("argument", argument.toJson)]
  | groupKey => .object [("kind", .string "group_key")]
  | record fields => .object [("kind", .string "record"), ("fields", .array (fieldsToJson fields))]

def fieldsToJson : List (String × Expr) → List Json
  | [] => []
  | (name, e) :: rest => .object [("name", .string name), ("expr", e.toJson)] :: fieldsToJson rest

end

/-- Reads an expression of a value that nests no deeper than `depth`; members that its kind does not
declare are ignored. -/
def readWithin (depth : Nat) (j : Json) : Option Expr :=
  match depth with
  | 0 => none
  | depth + 1 => do
    let (kind, payload) ← tagged? "kind" j
    match kind with
    | "member" => return member (← Member.ofJson? payload)
    | "constant" =>
      let [some value] ← record? ["value"] payload | none
      return constant value.collapse
    | "compare" =>
      let [op, left, right] ← record? ["op", "left", "right"] payload | none
      return compare (← required? Comparison.ofJson? op) (← required? (readWithin depth) left)
        (← required? (readWithin depth) right)
    | "and" =>
      let [left, right] ← record? ["left", "right"] payload | none
      return and (← required? (readWithin depth) left) (← required? (readWithin depth) right)
    | "or" =>
      let [left, right] ← record? ["left", "right"] payload | none
      return or (← required? (readWithin depth) left) (← required? (readWithin depth) right)
    | "not" =>
      let [operand] ← record? ["operand"] payload | none
      return not (← required? (readWithin depth) operand)
    | "prefix" =>
      let [m, text] ← record? ["member", "prefix"] payload | none
      return startsWith (← required? Member.ofJson? m) (← required? string? text)
    | "regexp" =>
      let [m, pattern] ← record? ["member", "pattern"] payload | none
      return regexp (← required? Member.ofJson? m) (← required? string? pattern)
    | "aggregate" =>
      let [function, argument] ← record? ["aggregate", "argument"] payload | none
      return aggregate (← required? Aggregate.ofJson? function)
        (← optional? (readWithin depth) argument)
    | "group_key" =>
      match payload with
      | .object _ | .array [] => return groupKey
      | _ => none
    | "record" =>
      let [fields] ← record? ["fields"] payload | none
      return record (← required? (list? (readField (readWithin depth))) fields)
    | _ => none
where
  /-- A named expression of a record. -/
  readField (read : Json → Option Expr) (j : Json) : Option (String × Expr) := do
    let [name, e] ← record? ["name", "expr"] j | none
    return (← required? string? name, ← required? read e)

def ofJson? (j : Json) : Option Expr := readWithin j.depth j

end Expr

end SearchQuery
