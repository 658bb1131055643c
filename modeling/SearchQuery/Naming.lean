import SearchQuery.Settings
import SearchQuery.Text.Lowercase

/-!
How members and types of documents are named on the wire.
-/

namespace SearchQuery

structure Naming where
  field : Member → String
  type : String → String

namespace NamingPolicy

def apply (p : NamingPolicy) (name : String) : String :=
  if p.camelCase then Text.lowerFirst name else name

def fieldName (p : NamingPolicy) (m : Member) : String := ".".intercalate (m.path.map p.apply)

/-- Types name collections, in the plural unless the name ends in an `s` already. -/
def typeName (p : NamingPolicy) (name : String) : String :=
  let name := p.apply name
  if p.pluralize ∧ name.toList.getLast? ≠ some 's' then name ++ "s" else name

end NamingPolicy

/-- `EnergyUse` is the field `energyUse`, `Address.City` the field `address.city` and `Robot` the
collection `robots`. -/
def Naming.standard (p : NamingPolicy) : Naming := ⟨p.fieldName, p.typeName⟩

/-- A naming with the namespace that all fields of a query are placed under. -/
structure FieldNames where
  naming : Naming
  namespaceName : String

def FieldNames.field (f : FieldNames) (m : Member) : String :=
  if f.namespaceName = "" then f.naming.field m
  else f.namespaceName ++ "." ++ f.naming.field m

end SearchQuery
