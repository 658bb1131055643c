import SearchQuery.Number.Basic

/-!
JSON values with objects as ordered lists of members. An object that was read as written may repeat
a name; `collapse` settles every repetition, the last value taking the first place.
-/

namespace SearchQuery

inductive Json where
  | null
  | bool (b : Bool)
  | number (n : Number)
  | string (s : String)
  | array (items : List Json)
  | object (members : List (String × Json))
deriving Inhabited

abbrev Members := List (String × Json)

namespace Members

/-- The value under a name; the first one where a name repeats. -/
def get? (name : String) : Members → Option Json
  | [] => none
  | (n, v) :: rest => if n = name then some v else get? name rest

/-- Replaces the value in place, or adds the member at the end. -/
def insert (name : String) (value : Json) : Members → Members
  | [] => [(name, value)]
  | (n, v) :: rest => if n = name then (n, value) :: rest else (n, v) :: insert name value rest

def ofList (entries : List (String × Json)) : Members :=
  entries.foldl (fun members (name, value) => members.insert name value) []

theorem get?_insert (name other : String) (value : Json) (members : Members) :
    (members.insert name value).get? other =
      if name = other then some value else members.get? other := by
  induction members with
  | nil => rfl
  | cons m rest ih =>
    obtain ⟨n, v⟩ := m
    by_cases h : n = name
    · subst h
      by_cases ho : n = other <;> simp [insert, get?, ho]
    · by_cases ho : n = other
      · subst ho
        simp [insert, get?, h, Ne.symm h]
      · simp [insert, get?, h, ho, ih]

/-- A name that is present keeps its place, and a new one comes last. -/
theorem names_insert (name : String) (value : Json) (members : Members) :
    (members.insert name value).map Prod.fst =
      if name ∈ members.map Prod.fst then members.map Prod.fst
      else members.map Prod.fst ++ [name] := by
  induction members with
  | nil => rfl
  | cons m rest ih =>
    obtain ⟨n, v⟩ := m
    by_cases h : n = name
    · simp [insert, h]
    · simp only [insert, h, if_false, List.map_cons, ih, List.mem_cons, Ne.symm h, false_or]
      split <;> rfl

end Members

namespace Json

def nat (n : Nat) : Json := .number (.int n)

def strings (ss : List String) : Json := .array (ss.map .string)

def single (name : String) (value : Json) : Json := .object [(name, value)]

def ofOption (encode : α → Json) : Option α → Json
  | none => .null
  | some a => encode a

def isNull : Json → Bool
  | .null => true
  | _ => false

/-- Any number as the nearest double; other values have none. -/
def toDouble? : Json → Option Double
  | .number n => some n.toDouble
  | _ => none

mutual

/-- The containers around the innermost value. -/
def depth : Json → Nat
  | .array items => depthItems items + 1
  | .object members => depthMembers members + 1
  | _ => 0

def depthItems : List Json → Nat
  | [] => 0
  | v :: rest => max v.depth (depthItems rest)

def depthMembers : List (String × Json) → Nat
  | [] => 0
  | (_, v) :: rest => max v.depth (depthMembers rest)

end

mutual

/-- Settles repeated names at every depth. -/
def collapse : Json → Json
  | .array items => .array (collapseItems items)
  | .object members => .object (Members.ofList (collapseMembers members))
  | v => v

def collapseItems : List Json → List Json
  | [] => []
  | v :: rest => v.collapse :: collapseItems rest

def collapseMembers : List (String × Json) → List (String × Json)
  | [] => []
  | (n, v) :: rest => (n, v.collapse) :: collapseMembers rest

end

mutual

/-- Equality of values: arrays in order, objects whatever the order of their members. -/
def same : Json → Json → Bool
  | .null, .null => true
  | .bool a, .bool b => a = b
  | .number a, .number b => a.same b
  | .string a, .string b => a = b
  | .array a, .array b => sameItems a b
  | .object a, .object b => a.length = b.length && sameMembers a b
  | _, _ => false

def sameItems : List Json → List Json → Bool
  | [], [] => true
  | a :: as, b :: bs => same a b && sameItems as bs
  | _, _ => false

/-- Every member of the first object is in the second. -/
def sameMembers : List (String × Json) → Members → Bool
  | [], _ => true
  | (n, v) :: rest, b =>
    (match b.get? n with
      | some w => same v w
      | none => false) && sameMembers rest b

end

instance : BEq Json := ⟨same⟩

end Json

end SearchQuery
