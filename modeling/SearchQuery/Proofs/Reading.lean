import SearchQuery.Criteria.Basic
import SearchQuery.Naming
import SearchQuery.Proofs.Settled

/-!
What predicates and criteria say of a document. The atoms are read by the engine; only what every
engine agrees on is asked of a reading.
-/

namespace SearchQuery

/-- A document by the fields it is found under: each has one value, or is absent. -/
structure Document where
  value? : String → Option Json
  ne_null : ∀ {field v}, value? field = some v → v.isNull = false
  settled : ∀ {field v}, value? field = some v → v.Settled

namespace Document

/-- The field is there, and its value passes the test. -/
def has (d : Document) (field : String) (test : Json → Bool) : Bool := (d.value? field).any test

theorem has_congr {d : Document} {p q : Json → Bool}
    (h : ∀ v, v.Settled → p v = q v) : d.has field p = d.has field q := by
  rw [has, has]
  cases hv : d.value? field with
  | none => rfl
  | some v => exact h v (d.settled hv)

def ofMembers (members : Members)
    (h : ∀ m ∈ members, m.2.isNull = false ∧ m.2.Settled) : Document where
  value? field := members.get? field
  ne_null hv := (h _ (Members.mem_of_get? hv)).1
  settled hv := (h _ (Members.mem_of_get? hv)).2

end Document

/-- A bound at the first number lets through all that one at the second does. -/
def BoundKind.Looser : BoundKind → Double → Double → Prop
  | above, x, y | atLeast, x, y => x.units ≤ y.units
  | below, x, y | atMost, x, y => y.units ≤ x.units

/-- On which side of a limit a bound leaves a number. -/
def BoundKind.admits : BoundKind → Double → Double → Bool
  | above, limit, x => limit.units < x.units
  | atLeast, limit, x => limit.units ≤ x.units
  | below, limit, x => x.units < limit.units
  | atMost, limit, x => x.units ≤ limit.units

theorem BoundKind.admits_of_looser {k : BoundKind} (hl : k.Looser x y)
    (h : k.admits y z = true) : k.admits x z = true := by
  cases k <;> simp only [Looser, admits, decide_eq_true_eq] at * <;> omega

/-- How an engine reads the atoms of criteria: `equals` and `bound` take the value of the document
first and the constant last. Equal constants are read alike, and numbers bound in the order of their
doubles. -/
structure Reading where
  equals : Json → Json → Bool
  startsWith : Json → String → Bool
  regexp : Json → String → Bool
  bound : BoundKind → Json → Json → Bool
  text : String → Document → Bool
  equals_congr : ∀ {v a b}, v.Settled → a.Settled → b.Settled → Json.same a b = true →
    equals v a = equals v b
  bound_mono : ∀ {k v a b x y}, a.toDouble? = some x → b.toDouble? = some y → k.Looser x y →
    bound k v b = true → bound k v a = true

namespace Reading

/-- A member on the left of a comparison and a constant on the right; an absent member equals `null`
and has no order. -/
def compares (r : Reading) (value : Option Json) (op : Comparison) (constant : Json) : Bool :=
  match op with
  | .eq => if constant.isNull then value.isNone else value.any (r.equals · constant)
  | .ne => if constant.isNull then value.isSome else !value.any (r.equals · constant)
  | .gt => value.any (r.bound .above · constant)
  | .ge => value.any (r.bound .atLeast · constant)
  | .lt => value.any (r.bound .below · constant)
  | .le => value.any (r.bound .atMost · constant)

/-- A constant on the left of a comparison, which is read from the right. -/
def comparesConstant (r : Reading) (constant : Json) (op : Comparison) (value : Option Json) :
    Bool :=
  match op with
  | .eq => r.compares value .eq constant
  | .ne => r.compares value .ne constant
  | .gt => r.compares value .lt constant
  | .ge => r.compares value .le constant
  | .lt => r.compares value .gt constant
  | .le => r.compares value .ge constant

/-- The engine that takes atoms literally: values equal themselves only, numbers alone have an
order, a pattern matches the text it spells, and every text is found. -/
def literal : Reading where
  equals := Json.same
  startsWith v text :=
    match v with
    | .string s => text.toList.isPrefixOf s.toList
    | _ => false
  regexp v pattern :=
    match v with
    | .string s => s = pattern
    | _ => false
  bound k v a :=
    match a.toDouble?, v.toDouble? with
    | some limit, some x => k.admits limit x
    | _, _ => false
  text _ _ := true
  equals_congr := by
    intro v a b _ ha hb hab
    rw [Bool.eq_iff_iff]
    exact ⟨fun h => Json.same_trans h hab, fun h => Json.same_trans h (Json.same_symm ha hb hab)⟩
  bound_mono := by
    intro k v a b x y ha hb hl h
    rw [ha]
    rw [hb] at h
    cases hz : v.toDouble? with
    | none => rw [hz] at h; cases h
    | some z =>
      rw [hz] at h
      exact BoundKind.admits_of_looser hl h

end Reading

namespace Expr

/-- Whether a predicate is true of a document; other expressions are true of none. -/
def holds (r : Reading) (names : FieldNames) (d : Document) : Expr → Bool
  | and left right => left.holds r names d && right.holds r names d
  | or left right => left.holds r names d || right.holds r names d
  | not e => !e.holds r names d
  | member m => d.has (names.field m) (r.equals · (.bool true))
  | constant (.bool b) => b
  | compare op (member m) (constant v) => r.compares (d.value? (names.field m)) op v
  | compare op (constant v) (member m) => r.comparesConstant v op (d.value? (names.field m))
  | startsWith m text => d.has (names.field m) (r.startsWith · text)
  | regexp m pattern => d.has (names.field m) (r.regexp · pattern)
  | _ => false

end Expr

def Bound.holds (r : Reading) (d : Document) (field : String) (b : Bound) : Bool :=
  d.has field (r.bound b.kind · b.value)

namespace Criteria

mutual

def holds (r : Reading) (d : Document) : Criteria → Bool
  | matchAll => true
  | term field v => d.has field (r.equals · v)
  | terms field vs => d.has field fun x => vs.any (r.equals x)
  | range field bounds => bounds.all (Bound.holds r d field)
  | present field => (d.value? field).isSome
  | missing field => (d.value? field).isNone
  | startsWith field text => d.has field (r.startsWith · text)
  | regexp field pattern => d.has field (r.regexp · pattern)
  | queryString text => r.text text d
  | bool must should mustNot =>
    allHold r d must && (should.isEmpty || anyHolds r d should) && !anyHolds r d mustNot

def allHold (r : Reading) (d : Document) : List Criteria → Bool
  | [] => true
  | c :: rest => c.holds r d && allHold r d rest

def anyHolds (r : Reading) (d : Document) : List Criteria → Bool
  | [] => false
  | c :: rest => c.holds r d || anyHolds r d rest

end

theorem allHold_eq (r : Reading) (d : Document) (cs : List Criteria) :
    allHold r d cs = cs.all (holds r d) := by
  induction cs with
  | nil => rfl
  | cons c rest ih => rw [allHold, ih, List.all_cons]

theorem anyHolds_eq (r : Reading) (d : Document) (cs : List Criteria) :
    anyHolds r d cs = cs.any (holds r d) := by
  induction cs with
  | nil => rfl
  | cons c rest ih => rw [anyHolds, ih, List.any_cons]

theorem holds_bool (r : Reading) (d : Document) (must should mustNot : List Criteria) :
    (bool must should mustNot).holds r d =
      (must.all (holds r d) && (should.isEmpty || should.any (holds r d)) &&
        !mustNot.any (holds r d)) := by
  rw [holds, allHold_eq, anyHolds_eq, anyHolds_eq]

/-- Criteria that no other criteria are part of. -/
def IsAtom : Criteria → Prop
  | bool .. => False
  | _ => True

end Criteria

/-- By which criteria an engine that reads atoms as `r` does finds a document. Whether a `bool`
without a clause is one of them is left open. -/
structure Verdict (r : Reading) (d : Document) where
  accepts : Criteria → Bool
  atom : ∀ {c}, c.IsAtom → accepts c = c.holds r d
  bool : ∀ {must should mustNot}, must ≠ [] ∨ should ≠ [] ∨ mustNot ≠ [] →
    accepts (.bool must should mustNot) =
      (must.all accepts && (should.isEmpty || should.any accepts) && !mustNot.any accepts)

namespace Verdict

/-- The engine that finds every document by a `bool` without a clause. -/
def lenient (r : Reading) (d : Document) : Verdict r d where
  accepts := Criteria.holds r d
  atom _ := rfl
  bool _ := Criteria.holds_bool ..

theorem accepts_range (v : Verdict r d) (field : String) (bounds : List Bound) :
    v.accepts (.range field bounds) = bounds.all (Bound.holds r d field) :=
  v.atom trivial

end Verdict

end SearchQuery
