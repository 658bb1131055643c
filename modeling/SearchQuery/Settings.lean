import SearchQuery.Error
import SearchQuery.Json.Decode
import SearchQuery.Json.Reader

/-!
Settings of a planner, their JSON form and what makes them valid.
-/

namespace SearchQuery

open Json

/-- How the standard naming treats the names of members and types. -/
structure NamingPolicy where
  camelCase : Bool := true
  pluralize : Bool := true
deriving DecidableEq

namespace NamingPolicy

def toJson (p : NamingPolicy) : Json :=
  .object [("camel_case", .bool p.camelCase), ("pluralize_type_names", .bool p.pluralize)]

def ofJson? (j : Json) : Option NamingPolicy := do
  let [camelCase, pluralize] ← record? ["camel_case", "pluralize_type_names"] j | none
  return ⟨← withDefault? true bool? camelCase, ← withDefault? true bool? pluralize⟩

def shape : Shape := .record [("camel_case", .any), ("pluralize_type_names", .any)]

end NamingPolicy

/-- The prefix is a dotted namespace put before every field; the default size limits lists of hits
that no query limits itself. -/
structure Settings where
  index : Option String := none
  fieldPrefix : String := ""
  defaultSize : Option Nat := none
  naming : NamingPolicy := {}
deriving DecidableEq

namespace Settings

def toJson (s : Settings) : Json :=
  .object [("index", .ofOption .string s.index), ("field_prefix", .string s.fieldPrefix),
    ("default_size", .ofOption .nat s.defaultSize), ("mapping", s.naming.toJson)]

def ofJson? (j : Json) : Option Settings := do
  let [index, fieldPrefix, defaultSize, naming] ←
    record? ["index", "field_prefix", "default_size", "mapping"] j | none
  return ⟨← optional? string? index, ← withDefault? "" string? fieldPrefix,
    ← optional? nat? defaultSize, ← withDefault? {} NamingPolicy.ofJson? naming⟩

def shape : Shape :=
  .record [("index", .any), ("field_prefix", .any), ("default_size", .any),
    ("mapping", NamingPolicy.shape)]

/-- A prefix has no dot at its ends, and an index has a name without a slash. -/
def validate (s : Settings) : Except Error Unit := do
  let chars := s.fieldPrefix.toList
  if chars.head? = some '.' ∨ chars.getLast? = some '.' then
    throw (.settings (.fieldPrefix s.fieldPrefix))
  match s.index with
  | some name =>
    if name.isEmpty ∨ '/' ∈ name.toList then throw (.settings (.index name))
  | none => return ()

def ofText (text : String) : Except Error Settings := do
  let s ← Error.ofOption (Json.ofText? shape text >>= ofJson?)
  s.validate
  return s

end Settings

end SearchQuery
