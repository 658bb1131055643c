import Mathlib.Data.List.Permutation
import SearchQuery.Proofs.Paging
import SearchQuery.Proofs.StableSort

/-!
Orderings performed one after another on a list of documents, and the sort keys of a plan that have
the same effect. What a secondary ordering may rearrange are documents that tie in all the orderings
before it, those before the latest primary one included.
-/

namespace SearchQuery

/-- Ordered documents, and which two of them a secondary ordering may exchange. -/
structure Ranking (α : Type) where
  docs : List α
  tied : α → α → Bool

/-- Before the first ordering all documents tie. -/
def Ranking.start (docs : List α) : Ranking α := ⟨docs, fun _ _ => true⟩

namespace Collection

variable (c : Collection α)

/-- A primary ordering sorts all documents, a secondary one each run of those that tie. -/
def arrange (r : Ranking α) (k : SortKey) (secondary : Bool) : List α :=
  if secondary then (r.docs.splitBy r.tied).flatMap fun run => run.mergeSort (c.le k)
  else r.docs.mergeSort (c.le k)

/-- One more ordering, when documents tie that no ordering so far tells apart. -/
def orderAll (r : Ranking α) (o : SortKey × Bool) : Ranking α :=
  ⟨c.arrange r o.1 o.2, fun a b => r.tied a b && ties (c.le o.1) a b⟩

/-- One more ordering, when documents tie that no ordering tells apart since the latest primary
one. -/
def orderLatest (r : Ranking α) (o : SortKey × Bool) : Ranking α :=
  ⟨c.arrange r o.1 o.2, fun a b => (!o.2 || r.tied a b) && ties (c.le o.1) a b⟩

/-- What a list of sort keys makes of documents. -/
def ranked (keys : List SortKey) (docs : List α) : Ranking α :=
  ⟨c.sorted keys docs, ties (c.before keys)⟩

theorem isOrder_le (k : SortKey) : IsOrder (c.le k) := ⟨c.le_total k, c.le_trans k⟩

theorem before_cons (k : SortKey) (keys : List SortKey) :
    c.before (k :: keys) = lex (c.le k) (c.before keys) := rfl

theorem before_singleton (k : SortKey) : c.before [k] = c.le k := by
  funext a b
  simp [before]

theorem isOrder_before (keys : List SortKey) : IsOrder (c.before keys) := by
  induction keys with
  | nil => exact ⟨fun _ _ => rfl, fun _ _ _ _ _ => rfl⟩
  | cons k keys ih =>
    rw [before_cons]
    exact (c.isOrder_le k).lex ih

theorem before_append_singleton (keys : List SortKey) (k : SortKey) :
    c.before (keys ++ [k]) = lex (c.before keys) (c.le k) := by
  induction keys with
  | nil =>
    rw [List.nil_append, before_singleton]
    rfl
  | cons first rest ih => rw [List.cons_append, before_cons, ih, before_cons, lex_assoc]

theorem ranked_nil (docs : List α) : c.ranked [] docs = .start docs := by
  have hs : c.sorted [] docs = docs :=
    List.mergeSort_of_pairwise (List.pairwise_of_forall fun _ _ => rfl)
  rw [ranked, hs]
  rfl

theorem ties_before_cons (k : SortKey) (keys : List SortKey) :
    ties (c.before (k :: keys)) = fun a b => ties (c.before keys) a b && ties (c.le k) a b := by
  funext a b
  rw [before_cons, ties_lex, Bool.and_comm]

theorem ties_before_append_singleton (keys : List SortKey) (k : SortKey) :
    ties (c.before (keys ++ [k])) = fun a b => ties (c.before keys) a b && ties (c.le k) a b := by
  funext a b
  rw [before_append_singleton, ties_lex]

theorem pairwise_sorted (keys : List SortKey) (docs : List α) :
    (c.sorted keys docs).Pairwise fun a b => c.before keys a b = true :=
  List.pairwise_mergeSort (c.isOrder_before keys).trans (c.isOrder_before keys).total docs

/-- Sorting the runs that some keys leave is sorting by one key more. -/
theorem arrange_secondary {keys : List SortKey} {docs : List α}
    (hd : docs.Pairwise fun a b => c.before keys a b = true) (k : SortKey) :
    c.arrange ⟨docs, ties (c.before keys)⟩ k true = c.sorted (keys ++ [k]) docs := by
  rw [sorted, before_append_singleton]
  exact (c.isOrder_before keys).flatMap_mergeSort_splitBy (c.isOrder_le k) hd

/-- A primary key goes before all others and a secondary one after them. -/
theorem orderAll_ranked (keys : List SortKey) (docs : List α) (k : SortKey) (secondary : Bool) :
    c.orderAll (c.ranked keys docs) (k, secondary) =
      c.ranked (if secondary then keys ++ [k] else k :: keys) docs := by
  have hk := c.isOrder_le k
  have hkeys := c.isOrder_before keys
  cases secondary with
  | true =>
    have hdocs : c.arrange (c.ranked keys docs) k true = c.sorted (keys ++ [k]) docs := by
      rw [ranked, c.arrange_secondary (c.pairwise_sorted keys docs), sorted, sorted, sorted,
        before_append_singleton, hkeys.mergeSort_lex hk]
    rw [orderAll, hdocs, if_pos rfl, ranked, ranked, ties_before_append_singleton]
  | false =>
    have hdocs : c.arrange (c.ranked keys docs) k false = c.sorted (k :: keys) docs :=
      hk.mergeSort_mergeSort hkeys docs
    rw [orderAll, hdocs, if_neg Bool.false_ne_true, ranked, ranked, ties_before_cons]

/-- The keys that a chain collects do what its orderings do one after another. -/
theorem foldl_orderAll_ranked (names : FieldNames) (steps : List Step) (keys : List SortKey)
    (docs : List α) :
    (steps.filterMap (Step.ordering? names)).foldl c.orderAll (c.ranked keys docs) =
      c.ranked (steps.foldl (Step.sortKeys names) keys) docs := by
  induction steps generalizing keys with
  | nil => rfl
  | cons s rest ih =>
    rw [List.foldl_cons, Step.sortKeys, List.filterMap_cons]
    cases s.ordering? names with
    | none => exact ih keys
    | some o => rw [List.foldl_cons, orderAll_ranked, ih]

variable {c}

/-- A primary ordering does not ask which documents tie. -/
theorem docs_foldl_of_primary {orderings : List (SortKey × Bool)}
    (h : ∀ o ∈ orderings, o.2 = false) {r r' : Ranking α} (hd : r.docs = r'.docs) :
    (orderings.foldl c.orderAll r).docs = (orderings.foldl c.orderLatest r').docs := by
  induction orderings generalizing r r' with
  | nil => exact hd
  | cons o rest ih =>
    rw [List.foldl_cons, List.foldl_cons]
    apply ih fun o ho => h o (.tail _ ho)
    simp only [orderAll, orderLatest, arrange, h o (.head _), hd, Bool.false_eq_true, if_false]

/-- Both readings agree when no secondary ordering follows a primary one. -/
theorem docs_foldl_of_pairwise {orderings : List (SortKey × Bool)}
    (h : orderings.Pairwise fun o o' => o.2 = false → o'.2 = false) (r : Ranking α) :
    (orderings.foldl c.orderAll r).docs = (orderings.foldl c.orderLatest r).docs := by
  induction orderings generalizing r with
  | nil => rfl
  | cons o rest ih =>
    obtain ⟨hfirst, hrest⟩ := List.pairwise_cons.1 h
    rw [List.foldl_cons, List.foldl_cons]
    cases ho : o.2 with
    | true =>
      have hr : c.orderLatest r o = c.orderAll r o := by simp [orderLatest, orderAll, ho]
      rw [hr, ih hrest]
    | false =>
      -- The ties differ from here on, but only primary orderings are left.
      exact docs_foldl_of_primary (fun o' hm => hfirst o' hm ho) rfl

end Collection

/-- After the first ordering no secondary one comes after a primary one. -/
def TiesFirst (orderings : List (SortKey × Bool)) : Prop :=
  orderings.tail.Pairwise fun o o' => o.2 = false → o'.2 = false

instance (orderings : List (SortKey × Bool)) : Decidable (TiesFirst orderings) :=
  inferInstanceAs (Decidable (List.Pairwise ..))

theorem TiesFirst.docs_foldl {orderings : List (SortKey × Bool)} (h : TiesFirst orderings)
    (c : Collection α) (docs : List α) :
    (orderings.foldl c.orderAll (.start docs)).docs =
      (orderings.foldl c.orderLatest (.start docs)).docs := by
  cases orderings with
  | nil => rfl
  | cons o rest =>
    have hr : c.orderLatest (.start docs) o = c.orderAll (.start docs) o := by
      simp [Collection.orderLatest, Collection.orderAll, Ranking.start]
    rw [List.foldl_cons, List.foldl_cons, hr]
    exact Collection.docs_foldl_of_pairwise h _

namespace Collection

/-- Whether a flag may come before another one, cleared ones first unless turned around. -/
def flagLe (turned a b : Bool) : Bool := !(a ^^ turned) || (b ^^ turned)

theorem flagLe_total : ∀ turned a b, (flagLe turned a b || flagLe turned b a) = true := by
  decide

theorem flagLe_trans : ∀ turned a b d, flagLe turned a b = true → flagLe turned b d = true →
    flagLe turned a d = true := by
  decide

/-- Two documents: the one with the first name has the higher cost. -/
def rivals : Collection Bool where
  reading := .literal
  document b := .ofMembers [("name", .string (if b then "b" else "a")),
    ("cost", .nat (if b then 1 else 2))] (by simp [Json.nat, Json.isNull, Json.Settled])
  hit _ _ := {}
  le k a b :=
    if k.field = "name" then flagLe k.descending a b
    else if k.field = "cost" then flagLe (!k.descending) a b
    else true
  le_total k a b := by
    split
    · exact flagLe_total ..
    · split
      · exact flagLe_total ..
      · rfl
  le_trans k a b d := by
    split
    · exact flagLe_trans _ a b d
    · split
      · exact flagLe_trans _ a b d
      · exact fun _ _ => rfl

end Collection

namespace Query

variable {q : Query} {names : FieldNames}

/-- The orderings of a chain in turn, each with whether it is a secondary one. -/
def orderings (names : FieldNames) (q : Query) : List (SortKey × Bool) :=
  q.steps.filterMap (Step.ordering? names)

/-- Sorting by the keys of a plan is performing the orderings of the chain in turn, where a
secondary one breaks the ties that all orderings before it leave. These may be the ties since the
latest primary ordering when no secondary one follows a primary one after the first ordering. -/
theorem plan_sorts (h : q.plan names = .ok p) (c : Collection α) (docs : List α) :
    c.sorted p.request.sort docs =
        ((q.orderings names).foldl c.orderAll (.start docs)).docs ∧
      (TiesFirst (q.orderings names) → c.sorted p.request.sort docs =
        ((q.orderings names).foldl c.orderLatest (.start docs)).docs) := by
  obtain ⟨-, d, hruns, hfinish⟩ := plan_eq_ok_iff.1 h
  have hsort : p.request.sort = q.steps.foldl (Step.sortKeys names) [] := by
    rw [(Draft.finish_request hfinish).2.2.1, hruns.sort]
  have hdocs : c.sorted p.request.sort docs =
      ((q.orderings names).foldl c.orderAll (.start docs)).docs := by
    rw [hsort, orderings, ← c.ranked_nil, c.foldl_orderAll_ranked]
    rfl
  exact ⟨hdocs, fun ht => hdocs.trans (ht.docs_foldl c docs)⟩

/-- By name and relevance, and then by cost. -/
def byNameThenCost : Query :=
  ⟨"Robot", [.orderBy (some (.field "name")) false false, .orderByScore true true,
    .orderBy (some (.field "cost")) true false]⟩

theorem plan_sorts_byNameThenCost : ∃ p, byNameThenCost.plan ⟨⟨Member.name, id⟩, ""⟩ = .ok p ∧
    Collection.rivals.sorted p.request.sort [true, false] =
      ((byNameThenCost.orderings ⟨⟨Member.name, id⟩, ""⟩).foldl Collection.rivals.orderLatest
        (.start [true, false])).docs :=
  ⟨_, rfl, (plan_sorts rfl Collection.rivals [true, false]).2 (by decide)⟩

/-- By zone, where cost breaks ties, of documents in the order of their names. -/
def byZoneOfNamed : Query :=
  ⟨"Robot", [.orderBy (some (.field "name")) false false,
    .orderBy (some (.field "zone")) false false, .orderBy (some (.field "cost")) false true]⟩

/-- The documents tie in their zone, so cost should decide, but the plan sorts by name first. -/
theorem byZoneOfNamed_by_name : ∃ p, byZoneOfNamed.plan ⟨⟨Member.name, id⟩, ""⟩ = .ok p ∧
    Collection.rivals.sorted p.request.sort [false, true] = [false, true] ∧
    ((byZoneOfNamed.orderings ⟨⟨Member.name, id⟩, ""⟩).foldl Collection.rivals.orderLatest
      (.start [false, true])).docs = [true, false] := by
  refine ⟨_, rfl, List.mergeSort_of_pairwise (by decide), ?_⟩
  cbv

end Query

end SearchQuery
