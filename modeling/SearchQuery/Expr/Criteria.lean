import SearchQuery.Criteria.Combine
import SearchQuery.Error
import SearchQuery.Naming

/-!
The criteria of a predicate. A predicate is put together by `and`, `or` and `not` from members,
truth values, prefix and regular expression matches, and comparisons of a member with a constant; no
other expression has criteria.
-/

namespace SearchQuery

/-- The field of an expression that has to be a plain member. -/
def FieldNames.fieldOf (names : FieldNames) (place : MemberPlace) : Expr → Except Error String
  | .member m => .ok (names.field m)
  | e => .error (.unsupported (.notMember place e))

namespace Criteria

/-- A range with one bound; nothing is ordered against `null`. -/
def bounded (field : String) (k : BoundKind) (value : Json) : Except Error Criteria :=
  if value.isNull then .error (.unsupported (.orderAgainstNull field))
  else .ok (.range field [⟨k, value⟩])

/-- What it means to compare a field with a constant; a field equals `null` when it is absent. -/
def compare (field : String) (op : Comparison) (value : Json) : Except Error Criteria :=
  match op with
  | .eq => .ok (if value.isNull then .missing field else .term field value)
  | .ne => .ok (if value.isNull then .present field else negate (.term field value))
  | .gt => bounded field .above value
  | .ge => bounded field .atLeast value
  | .lt => bounded field .below value
  | .le => bounded field .atMost value

end Criteria

namespace Expr

def compareCriteria (names : FieldNames) (op : Comparison) :
    Expr → Expr → Except Error Criteria
  | .member m, .constant v => Criteria.compare (names.field m) op v
  | .constant v, .member m => Criteria.compare (names.field m) op.flip v
  | left, right => .error (.unsupported (.comparison left right))

/-- The criteria of a predicate; a member alone has to be `true`. -/
def criteria (names : FieldNames) : Expr → Except Error Criteria
  | compare op left right => compareCriteria names op left right
  | and left right => do
    let l ← criteria names left
    let r ← criteria names right
    return Criteria.all [l, r]
  | or left right => do
    let l ← criteria names left
    let r ← criteria names right
    return Criteria.any [l, r]
  | not operand => do
    let c ← criteria names operand
    return c.negate
  | member m => .ok (.term (names.field m) (.bool true))
  | constant (.bool b) => .ok (if b then .matchAll else Criteria.negate .matchAll)
  | startsWith m text => .ok (.startsWith (names.field m) text)
  | regexp m pattern => .ok (.regexp (names.field m) pattern)
  | e => .error (.unsupported (.predicate e))

end Expr

end SearchQuery
