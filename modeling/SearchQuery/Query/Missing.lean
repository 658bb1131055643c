import SearchQuery.Error

/-!
The arguments that a query lacks, source first and from left to right.
-/

namespace SearchQuery

def Argument.ofOption (a : Argument) : Option α → Except Error α
  | some v => .ok v
  | none => .error (.missingArgument a)

mutual

/-- The missing arguments of an expression from left to right. -/
def Expr.missing : Expr → List Argument
  | .aggregate .count none => []
  | .aggregate a none => [.operand a]
  | .aggregate _ (some e) => e.missing
  | .compare _ left right | .and left right | .or left right => left.missing ++ right.missing
  | .not e => e.missing
  | .record fields => Expr.missingInFields fields
  | .member _ | .constant _ | .startsWith .. | .regexp .. | .groupKey => []

def Expr.missingInFields : List (String × Expr) → List Argument
  | [] => []
  | (_, e) :: rest => e.missing ++ Expr.missingInFields rest

end

def Step.missing : Step → List Argument
  | .filter p | .query p => (p.map Expr.missing).getD [.predicate]
  | .queryString text => if text.isSome then [] else [.text]
  | .orderBy key .. | .groupBy key => (key.map Expr.missing).getD [.key]
  | .select p => (p.map Expr.missing).getD [.projection]
  | .execute _ p => (p.map Expr.missing).getD []
  | .orderByScore .. | .skip _ | .take _ => []

def Query.missing (q : Query) : List Argument := q.steps.flatMap Step.missing

theorem Query.missing_push (q : Query) (s : Step) :
    (q.push s).missing = q.missing ++ s.missing := by
  simp [push, missing]

end SearchQuery
