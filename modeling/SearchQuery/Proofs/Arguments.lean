import SearchQuery.Proofs.Chain

/-!
The arguments that a query lacks: what it means that one is absent, and which absent one is the
first. The list of missing arguments starts with that one, and is empty when nothing is absent.
-/

namespace SearchQuery

/-- Where lists are joined, the first item is the first one of a list that only empty ones come
before. -/
theorem exists_first_of_flatMap {f : α → List β} {xs : List α} (h : xs.flatMap f = y :: ys) :
    ∃ before x after rest, xs = before ++ x :: after ∧ (∀ b ∈ before, f b = []) ∧
      f x = y :: rest := by
  induction xs with
  | nil => cases h
  | cons x xs ih =>
    rw [List.flatMap_cons] at h
    cases hx : f x with
    | nil =>
      rw [hx, List.nil_append] at h
      obtain ⟨before, z, after, rest, rfl, hb, hz⟩ := ih h
      exact ⟨x :: before, z, after, rest, rfl, List.forall_mem_cons.2 ⟨hx, hb⟩, hz⟩
    | cons z rest =>
      rw [hx] at h
      cases h
      exact ⟨[], x, xs, rest, rfl, by simp, hx⟩

theorem flatMap_eq_of_first {f : α → List β} {before after : List α}
    (hb : ∀ b ∈ before, f b = []) (hx : f x = y :: rest) :
    (before ++ x :: after).flatMap f = y :: (rest ++ after.flatMap f) := by
  rw [List.flatMap_append, List.flatMap_eq_nil_iff.2 hb, List.flatMap_cons, hx]
  rfl

namespace Expr

/-- The expressions that an expression is put together from, from left to right. -/
def parts : Expr → List Expr
  | compare _ left right | and left right | or left right => [left, right]
  | not e | aggregate _ (some e) => [e]
  | record fields => fields.map Prod.snd
  | aggregate _ none | member _ | constant _ | startsWith .. | regexp .. | groupKey => []

/-- Induction on an expression from its parts. -/
theorem partsInduction {P : Expr → Prop} (h : ∀ e : Expr, (∀ p ∈ e.parts, P p) → P e) (e : Expr) :
    P e := by
  have hnone (e : Expr) (he : e.parts = []) : P e := by
    apply h
    rw [he]
    simp
  -- The recursor asks for the same of operands that may be absent, of columns and of lists of them.
  apply Expr.rec (motive_1 := P) (motive_2 := fun o => ∀ e ∈ o, P e)
    (motive_3 := fun fields => ∀ m ∈ fields, P m.2) (motive_4 := fun m => P m.2)
  case member => exact fun _ => hnone _ rfl
  case constant => exact fun _ => hnone _ rfl
  case compare => exact fun _ _ _ hl hr => h _ (by simp [parts, hl, hr])
  case and => exact fun _ _ hl hr => h _ (by simp [parts, hl, hr])
  case or => exact fun _ _ hl hr => h _ (by simp [parts, hl, hr])
  case not => exact fun _ he => h _ (by simp [parts, he])
  case startsWith => exact fun _ _ => hnone _ rfl
  case regexp => exact fun _ _ => hnone _ rfl
  case aggregate =>
    intro a argument he
    cases argument with
    | none => exact hnone _ rfl
    | some e => exact h _ (by simpa [parts] using he)
  case groupKey => exact hnone _ rfl
  case record =>
    intro fields hf
    apply h
    intro p hp
    obtain ⟨m, hm, rfl⟩ := List.mem_map.1 hp
    exact hf m hm
  all_goals simp_all

/-- The first expression stands in the second one, at any depth. -/
inductive Within (x : Expr) : Expr → Prop
  | refl : Within x x
  | part (hp : p ∈ parts e) (h : Within x p) : Within x e

/-- No aggregate in an expression lacks its operand; only a count may do without one. -/
def Complete (e : Expr) : Prop := ∀ a, Within (.aggregate a none) e → a = .count

/-- The first operand that an expression lacks: all parts before it are complete. -/
inductive LacksFirst : Expr → Argument → Prop
  | operand (ha : a ≠ .count) : LacksFirst (.aggregate a none) (.operand a)
  | part (hp : parts e = before ++ p :: after) (hb : ∀ b ∈ before, Complete b)
    (h : LacksFirst p x) : LacksFirst e x

theorem complete_iff {e : Expr} :
    e.Complete ↔ (∀ a, e = .aggregate a none → a = .count) ∧ ∀ p ∈ e.parts, p.Complete := by
  constructor
  · intro h
    constructor
    · rintro a rfl
      exact h a .refl
    · intro p hp a ha
      exact h a (.part hp ha)
  · rintro ⟨he, hp⟩ a h
    cases h with
    | refl => exact he a rfl
    | part hm h => exact hp _ hm a h

theorem missingInFields_eq (fields : List (String × Expr)) :
    missingInFields fields = (fields.map Prod.snd).flatMap missing := by
  induction fields with
  | nil => rfl
  | cons m rest ih => rw [missingInFields, ih, List.map_cons, List.flatMap_cons]

/-- An aggregate may lack its own operand, and any expression what its parts lack. -/
theorem missing_cases (e : Expr) :
    (∃ a, a ≠ .count ∧ e = .aggregate a none ∧ e.missing = [.operand a]) ∨
      (∀ a, e = .aggregate a none → a = .count) ∧ e.missing = e.parts.flatMap missing := by
  cases e with
  | member | constant | startsWith | regexp | groupKey => exact .inr ⟨by simp, rfl⟩
  | compare | and | or | not => exact .inr ⟨by simp, by simp [missing, parts]⟩
  | record fields => exact .inr ⟨by simp, missingInFields_eq fields⟩
  | aggregate a argument =>
    cases argument with
    | none =>
      cases a with
      | count => exact .inr ⟨by simp, rfl⟩
      | sum | average | min | max => exact .inl ⟨_, by simp, rfl, rfl⟩
    | some e =>
      refine .inr ⟨by simp, ?_⟩
      cases a <;> simp [missing, parts]

theorem missing_eq_nil_iff {e : Expr} : e.missing = [] ↔ e.Complete := by
  induction e using partsInduction with
  | h e ih =>
    rw [complete_iff]
    rcases e.missing_cases with ⟨a, ha, rfl, hm⟩ | ⟨he, hm⟩
    · constructor
      · intro h
        rw [hm] at h
        cases h
      · intro h
        exact absurd (h.1 a rfl) ha
    · rw [hm, List.flatMap_eq_nil_iff]
      constructor
      · intro h
        exact ⟨he, fun p hp => (ih p hp).1 (h p hp)⟩
      · rintro ⟨-, h⟩ p hp
        exact (ih p hp).2 (h p hp)

theorem LacksFirst.missing {e : Expr} (h : e.LacksFirst x) : ∃ rest, e.missing = x :: rest := by
  induction h with
  | @operand a ha => cases a <;> first | exact absurd rfl ha | exact ⟨_, rfl⟩
  | @part e before p after x hp hb _ ih =>
    obtain ⟨rest, hr⟩ := ih
    rcases e.missing_cases with ⟨a, -, rfl, -⟩ | ⟨-, hm⟩
    · cases before <;> cases hp
    · rw [hm, hp]
      exact ⟨_, flatMap_eq_of_first (fun b h => missing_eq_nil_iff.2 (hb b h)) hr⟩

theorem lacksFirst_of_missing {e : Expr} (h : e.missing = x :: rest) : e.LacksFirst x := by
  induction e using partsInduction generalizing rest with
  | h e ih =>
    rcases e.missing_cases with ⟨a, ha, rfl, hm⟩ | ⟨-, hm⟩
    · rw [hm] at h
      cases h
      exact .operand ha
    · rw [hm] at h
      obtain ⟨before, p, after, tail, hp, hb, ht⟩ := exists_first_of_flatMap h
      have hmem : p ∈ e.parts := by rw [hp]; simp
      exact .part hp (fun b hm => missing_eq_nil_iff.1 (hb b hm)) (ih p hmem ht)

theorem exists_missing_iff {e : Expr} : (∃ rest, e.missing = x :: rest) ↔ e.LacksFirst x := by
  constructor
  · rintro ⟨rest, h⟩
    exact lacksFirst_of_missing h
  · exact LacksFirst.missing

end Expr

namespace Step

/-- The argument of an operation that is absent itself. -/
def absent? : Step → Option Argument
  | filter none | query none => some .predicate
  | queryString none => some .text
  | orderBy none .. | groupBy none => some .key
  | select none => some .projection
  | _ => none

def argument? : Step → Option Expr
  | filter e | query e | orderBy e .. | groupBy e | select e | execute _ e => e
  | queryString _ | orderByScore .. | skip _ | take _ => none

/-- An operation that has its argument, in which nothing is absent either. -/
def Complete (s : Step) : Prop := s.absent? = none ∧ ∀ e ∈ s.argument?, e.Complete

def LacksFirst (s : Step) (x : Argument) : Prop :=
  s.absent? = some x ∨ ∃ e, s.argument? = some e ∧ e.LacksFirst x

theorem missing_cases (s : Step) :
    (∃ a, s.absent? = some a ∧ s.argument? = none ∧ s.missing = [a]) ∨
      s.absent? = none ∧ s.missing = s.argument?.toList.flatMap Expr.missing := by
  cases s with
  | filter e | query e | orderBy e | groupBy e | select e =>
    cases e with
    | none => exact .inl ⟨_, rfl, rfl, rfl⟩
    | some e => exact .inr ⟨rfl, by simp [missing, argument?]⟩
  | queryString text =>
    cases text with
    | none => exact .inl ⟨_, rfl, rfl, rfl⟩
    | some text => exact .inr ⟨rfl, rfl⟩
  | execute terminal e =>
    refine .inr ⟨rfl, ?_⟩
    cases e <;> simp [missing, argument?]
  | orderByScore | skip | take => exact .inr ⟨rfl, rfl⟩

theorem missing_eq_nil_iff {s : Step} : s.missing = [] ↔ s.Complete := by
  rw [Complete]
  rcases s.missing_cases with ⟨a, ha, -, hm⟩ | ⟨ha, hm⟩
  · simp [ha, hm]
  · rw [ha, hm, List.flatMap_eq_nil_iff]
    simp [Expr.missing_eq_nil_iff]

theorem exists_missing_iff {s : Step} : (∃ rest, s.missing = x :: rest) ↔ s.LacksFirst x := by
  rw [LacksFirst]
  rcases s.missing_cases with ⟨a, ha, hn, hm⟩ | ⟨ha, hm⟩
  · simp [ha, hn, hm]
  · rw [ha, hm]
    cases s.argument? with
    | none => simp
    | some e => simp [Expr.exists_missing_iff]

end Step

namespace Query

def Complete (q : Query) : Prop := ∀ s ∈ q.steps, s.Complete

/-- The first argument that a query lacks: all operations before it are complete. -/
def LacksFirst (q : Query) (x : Argument) : Prop :=
  ∃ before s after, q.steps = before ++ s :: after ∧ (∀ t ∈ before, t.Complete) ∧ s.LacksFirst x

theorem missing_eq_nil_iff {q : Query} : q.missing = [] ↔ q.Complete := by
  rw [missing, List.flatMap_eq_nil_iff]
  exact forall₂_congr fun _ _ => Step.missing_eq_nil_iff

theorem exists_missing_iff {q : Query} : (∃ rest, q.missing = x :: rest) ↔ q.LacksFirst x := by
  constructor
  · rintro ⟨rest, h⟩
    obtain ⟨before, s, after, tail, hs, hb, ht⟩ := exists_first_of_flatMap h
    exact ⟨before, s, after, hs, fun t hm => Step.missing_eq_nil_iff.1 (hb t hm),
      Step.exists_missing_iff.1 ⟨tail, ht⟩⟩
  · rintro ⟨before, s, after, hs, hb, hx⟩
    obtain ⟨tail, ht⟩ := Step.exists_missing_iff.2 hx
    rw [missing, hs]
    exact ⟨_, flatMap_eq_of_first (fun t hm => Step.missing_eq_nil_iff.2 (hb t hm)) ht⟩

end Query

end SearchQuery
