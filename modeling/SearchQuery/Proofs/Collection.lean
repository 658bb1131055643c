import SearchQuery.Proofs.Selection

/-!
Collections of documents: what performing the operations of a chain one after another makes of them,
and what an engine answers to a request.
-/

namespace SearchQuery

/-- Documents with all that operations may look at. Each key orders them, with ties; a hit depends
on the fields that were asked for. -/
structure Collection (α : Type) where
  reading : Reading
  document : α → Document
  hit : List String → α → Hit
  le : SortKey → α → α → Bool
  le_total : ∀ k a b, (le k a b || le k b a) = true
  le_trans : ∀ k a b c, le k a b = true → le k b c = true → le k a c = true

/-- What a chain has come to: documents, with the keys of the latest ordering, values of a
projection, or a single value. -/
inductive Progress (α : Type) where
  | documents (docs : List α) (keys : List SortKey)
  | values (vs : List Json)
  | value (v : Json)

def Terminal.ofValues : Terminal → List Json → Json
  | first, vs => vs.head?.getD .null
  | count, vs => .nat vs.length
  | any, vs => .bool (!vs.isEmpty)

/-- The key of an ordering, and whether it only breaks ties. -/
def Step.ordering? (names : FieldNames) : Step → Option (SortKey × Bool)
  | .orderBy (some (.member m)) descending secondary =>
    some (⟨names.field m, descending⟩, secondary)
  | .orderByScore descending secondary => some (.relevance descending, secondary)
  | _ => none

/-- A page has at most as many documents as its limit, when it has one. -/
def cut (limit : Option Nat) (xs : List α) : List α :=
  match limit with
  | none => xs
  | some n => xs.take n

namespace Collection

variable (c : Collection α)

/-- Whether a document may come before another one: a key decides where the ones before it tie. -/
def before : List SortKey → α → α → Bool
  | [], _, _ => true
  | k :: rest, a, b => c.le k a b && (!c.le k b a || before rest a b)

/-- Documents that tie in all keys stay in their order. -/
def sorted (keys : List SortKey) (docs : List α) : List α := docs.mergeSort (c.before keys)

def project (p : Projection) (x : α) : Json := p.apply (c.hit p.fields x)

def kept (names : FieldNames) (s : Step) (docs : List α) : List α :=
  docs.filter fun x => s.selects c.reading names (c.document x)

/-- The result of an operation on what the operations before it came to. An ordering sorts anew, or
breaks the ties of the latest one. -/
def perform (names : FieldNames) : Progress α → Step → Progress α
  | .documents docs keys, s =>
    match s with
    | .skip n => .documents (docs.drop n) keys
    | .take n => .documents (docs.take n) keys
    | .select (some e) =>
      match Projection.ofExpr names e with
      | .ok p => .values (docs.map (c.project p))
      | .error _ => .documents docs keys
    | .execute terminal predicate =>
      .value (terminal.ofValues
        ((c.kept names (.execute terminal predicate) docs).map (c.project .source)))
    | s =>
      match s.ordering? names with
      | some (k, secondary) =>
        let keys := if secondary then keys ++ [k] else [k]
        .documents (c.sorted keys docs) keys
      | none => .documents (c.kept names s docs) keys
  | .values vs, .skip n => .values (vs.drop n)
  | .values vs, .take n => .values (vs.take n)
  | .values vs, .execute terminal _ => .value (terminal.ofValues vs)
  | p, _ => p

/-- A chain that ends with documents gives all of each. -/
def result : Progress α → Json
  | .documents docs _ => .array (docs.map (c.project .source))
  | .values vs => .array vs
  | .value v => v

/-- The result of the operations of a chain, performed one after another. -/
def evaluate (names : FieldNames) (steps : List Step) (docs : List α) : Json :=
  c.result (steps.foldl (c.perform names) (.documents docs []))

/-- The documents that a request finds, in the order it asks for. -/
def found (q : Request) (docs : List α) : List α :=
  c.sorted q.sort (docs.filter fun x => Engine.finds c.reading (c.document x) q.toJson)

/-- The response to a request has a page of the documents that it finds, and their number. -/
def answer (q : Request) (docs : List α) : Response :=
  { hits := some {
      total := (c.found q docs).length
      hits := some ((cut q.size ((c.found q docs).drop (q.start.getD 0))).map (c.hit q.fields)) } }

end Collection

end SearchQuery
