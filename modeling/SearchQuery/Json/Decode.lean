import SearchQuery.Json.Basic

/-!
Reading domain types from a JSON value. A record is an object, whose undeclared members are ignored,
or an array of its declared members in order; a tagged record names its kind under a tag, or in the
first place of an array.
-/

namespace SearchQuery.Json

def bool? : Json → Option Bool
  | .bool b => some b
  | _ => none

def string? : Json → Option String
  | .string s => some s
  | _ => none

/-- Integer literals that are not negative. -/
def nat? : Json → Option Nat
  | .number (.int n) => if 0 ≤ n then some n.toNat else none
  | _ => none

def list? (decode : Json → Option α) : Json → Option (List α)
  | .array items => items.mapM decode
  | _ => none

theorem nat?_nat (n : Nat) : (nat n).nat? = some n := by
  simp [nat, nat?]

/-- A list is read back when each of its items is. -/
theorem list?_map {encode : α → Json} {decode : Json → Option α} {as : List α}
    (h : ∀ a ∈ as, decode (encode a) = some a) :
    list? decode (.array (as.map encode)) = some as := by
  induction as with
  | nil => rfl
  | cons a as ih =>
    have hrest := ih fun b hb => h b (.tail a hb)
    simp only [list?] at hrest
    simp [list?, h a (.head as), hrest]

theorem list?_strings (ss : List String) : list? string? (.strings ss) = some ss :=
  list?_map fun _ _ => rfl

/-- The settled members of an object. -/
def members? : Json → Option Members
  | .object members => some (Members.ofList (collapseMembers members))
  | _ => none

def optional? (decode : Json → Option α) : Option Json → Option (Option α)
  | none | some .null => some none
  | some v => (decode v).map some

/-- A member that stands for a default when absent; `null` is a value like any other. -/
def withDefault? (default : α) (decode : Json → Option α) : Option Json → Option α
  | none => some default
  | some v => decode v

def required? (decode : Json → Option α) (v : Option Json) : Option α := v >>= decode

/-- The value under a name: none when absent, a failure when the name repeats. -/
def unique? (members : List (String × Json)) (name : String) : Option (Option Json) :=
  match members.filter (·.1 = name) with
  | [] => some none
  | [(_, v)] => some (some v)
  | _ => none

/-- The declared members of a record, in order of declaration. -/
def record? (names : List String) : Json → Option (List (Option Json))
  | .object members => names.mapM (unique? members)
  | .array items =>
    if items.length ≤ names.length then
      some (items.map some ++ List.replicate (names.length - items.length) none)
    else none
  | _ => none

/-- The tag of a tagged record, and the record without it. -/
def tagged? (tag : String) : Json → Option (String × Json)
  | .object members =>
    match unique? members tag with
    | some (some (.string kind)) => some (kind, .object (members.filter (·.1 ≠ tag)))
    | _ => none
  | .array (.string kind :: rest) => some (kind, .array rest)
  | _ => none

end SearchQuery.Json
