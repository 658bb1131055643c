import SearchQuery.Json.Basic

/-!
Value expressions: the predicates, keys and projections of a query. They are plain data and may be
put together in ways that no query accepts.
-/

namespace SearchQuery

/-- A member of a document, reached through nested objects from the outermost inwards. -/
structure Member where
  path : List String
deriving DecidableEq

namespace Member

def single (name : String) : Member := ⟨[name]⟩

/-- The innermost name. -/
def name (m : Member) : String := m.path.getLast?.getD ""

end Member

inductive Comparison where
  | eq
  | ne
  | gt
  | ge
  | lt
  | le
deriving DecidableEq

/-- The comparison with its operands exchanged. -/
def Comparison.flip : Comparison → Comparison
  | .gt => .lt
  | .ge => .le
  | .lt => .gt
  | .le => .ge
  | c => c

theorem Comparison.flip_flip (c : Comparison) : c.flip.flip = c := by
  cases c <;> rfl

inductive Aggregate where
  | count
  | sum
  | average
  | min
  | max
deriving DecidableEq

def Aggregate.name : Aggregate → String
  | .count => "Count"
  | .sum => "Sum"
  | .average => "Average"
  | .min => "Min"
  | .max => "Max"

/-- The argument of an aggregate is the predicate of a count, which may be absent, or the member
that the others read. -/
inductive Expr where
  | member (m : Member)
  | constant (value : Json)
  | compare (op : Comparison) (left right : Expr)
  | and (left right : Expr)
  | or (left right : Expr)
  | not (operand : Expr)
  | startsWith (m : Member) (text : String)
  | regexp (m : Member) (pattern : String)
  | aggregate (function : Aggregate) (argument : Option Expr)
  | groupKey
  | record (fields : List (String × Expr))
deriving Inhabited

namespace Expr

def field (name : String) : Expr := .member (.single name)

def isNull (e : Expr) : Expr := .compare .eq e (.constant .null)

def isNotNull (e : Expr) : Expr := .compare .ne e (.constant .null)

def description : Expr → String
  | member _ => "member access"
  | constant _ => "constant"
  | compare .. => "comparison"
  | and .. => "logical and"
  | or .. => "logical or"
  | not _ => "logical not"
  | startsWith .. => "prefix match"
  | regexp .. => "regular expression match"
  | aggregate .. => "aggregate"
  | groupKey => "group key"
  | record _ => "record projection"

end Expr

end SearchQuery
