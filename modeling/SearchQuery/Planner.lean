import SearchQuery.Plan

/-!
Planners: valid settings together with the naming that queries are planned with.
-/

namespace SearchQuery

namespace Plan

/-- Limits a list of hits that has no limit of its own. -/
def withDefaultSize (p : Plan) (size : Option Nat) : Plan :=
  match p.extractor, p.request.size with
  | .hits _, none => { p with request := { p.request with size := size } }
  | _, _ => p

/-- The value of a response, read as a type. -/
def extractAs (p : Plan) (decode : Json → Option α) (r : Option Response) : Except Error α := do
  let v ← p.extractor.extract r
  Error.ofOption (decode v)

end Plan

structure Planner where
  settings : Settings
  naming : Naming

namespace Planner

def ofSettings (s : Settings) : Except Error Planner := do
  s.validate
  return ⟨s, .standard s.naming⟩

def names (p : Planner) : FieldNames := ⟨p.naming, p.settings.fieldPrefix⟩

def plan (p : Planner) (q : Query) : Except Error Plan := do
  let plan ← q.plan p.names
  return plan.withDefaultSize p.settings.defaultSize

def path (p : Planner) (plan : Plan) : String := plan.request.path p.settings.index

end Planner

end SearchQuery
