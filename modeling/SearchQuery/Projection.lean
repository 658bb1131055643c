import SearchQuery.Expr.Criteria
import SearchQuery.Extractor

/-!
Projections of documents: a query may ask for one field of each document, or for a record of fields
under names of its own.
-/

namespace SearchQuery.Projection

def ofExpr (names : FieldNames) : Expr → Except Error Projection
  | .member m => .ok (.field (names.field m))
  | .record fields => do
    let members ← fields.mapM fun (name, e) => do
      let f ← names.fieldOf .select e
      return (name, f)
    return .record members
  | e => .error (.unsupported (.projection e))

/-- The fields that a projection reads, each once. -/
def fields : Projection → List String
  | source => []
  | field name => [name]
  | record members => (members.map Prod.snd).eraseDups

def valueType (docType : String) : Projection → ValueType
  | source => .document docType
  | field _ => .value
  | record members => .record (members.map Prod.fst)

end SearchQuery.Projection
