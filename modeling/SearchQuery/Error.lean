import SearchQuery.Query.Basic
import SearchQuery.Text.Quoted

/-!
Why a query has no request, a response no value, or a text no meaning. Each cause is a constructor;
the wording of all of them is in `Error.message?`.
-/

namespace SearchQuery

/-- Arguments that may not be absent. -/
inductive Argument where
  | predicate
  | text
  | key
  | projection
  | operand (function : Aggregate)
  | response
deriving DecidableEq

def Argument.name : Argument → String
  | .predicate => "predicate"
  | .text => "query"
  | .key => "keySelector"
  | .projection => "selector"
  | .operand function => function.name
  | .response => "response"

/-- Places that take nothing but a member of a document. -/
inductive MemberPlace where
  | orderBy
  | select
  | operand (function : Aggregate)
deriving DecidableEq

def MemberPlace.name : MemberPlace → String
  | .orderBy => "OrderBy"
  | .select => "Select"
  | .operand function => function.name

/-- Expressions and chains that no request can express. -/
inductive Unsupported where
  | predicate (e : Expr)
  | comparison (left right : Expr)
  | orderAgainstNull (field : String)
  | notMember (place : MemberPlace) (e : Expr)
  | groupKey (e : Expr)
  | projection (e : Expr)
  | groupedColumn (e : Expr)
  | onGrouped (s : Step)
  | afterTerminal (s : Step)
  | afterSelect (s : Step)
  | predicateAfterSelect (s : Step)
  | takeBeforeSelect
  | nestedGroupBy
  | groupByAfterPaging
  | selectAfterGrouped
  | groupByWithoutSelect

def Unsupported.message : Unsupported → String
  | .predicate e => e.description ++ " can not be used as a predicate"
  | .comparison left right =>
    "comparison between " ++ left.description ++ " and " ++ right.description ++
      "; one side must be a member and the other a constant"
  | .orderAgainstNull field => "ordering comparison of " ++ field ++ " against null"
  | .notMember place e => place.name ++ " must select a member, found " ++ e.description
  | .groupKey e => "GroupBy key must be a member or a constant, found " ++ e.description
  | .projection e =>
    e.description ++ " in Select; only members and records of members can be projected"
  | .groupedColumn e =>
    e.description ++ " in a grouped projection; only aggregates and the group key are allowed"
  | .onGrouped s => s.name ++ " on a grouped query"
  | .afterTerminal s => s.name ++ " after a terminal operation"
  | .afterSelect s => s.name ++ " after Select"
  | .predicateAfterSelect s => s.name ++ " with a predicate after Select"
  | .takeBeforeSelect => "Take between GroupBy and Select"
  | .nestedGroupBy => "nested GroupBy"
  | .groupByAfterPaging => "GroupBy after Skip or Take"
  | .selectAfterGrouped => "Select after a grouped projection"
  | .groupByWithoutSelect => "GroupBy must be followed by a Select of aggregates"

/-- Settings that no context accepts. -/
inductive BadSetting where
  | fieldPrefix (text : String)
  | index (name : String)
deriving DecidableEq

def BadSetting.message : BadSetting → String
  | .fieldPrefix text => "field_prefix must not start or end with '.': " ++ Text.quoted text
  | .index name => "invalid index name: " ++ Text.quoted name

inductive Error where
  | missingArgument (a : Argument)
  | duplicateMember (name : String)
  | unsupported (cause : Unsupported)
  | settings (cause : BadSetting)
  | malformed
  | unreadable

namespace Error

/-- What went wrong in words; a malformed value and an unreadable file have none of their own. -/
def message? : Error → Option String
  | missingArgument a => some ("Invalid argument: " ++ a.name ++ " must not be null")
  | duplicateMember name =>
    some ("Invalid argument: duplicate member " ++ name ++ " in projection")
  | unsupported cause => some ("Unsupported expression: " ++ cause.message)
  | settings cause => some ("Configuration error: " ++ cause.message)
  | malformed | unreadable => none

/-- Whether the fault lies in the query or a missing response, rather than in data or settings. -/
def isQueryError : Error → Bool
  | missingArgument _ | duplicateMember _ | unsupported _ => true
  | settings _ | malformed | unreadable => false

/-- A value that could not be decoded is malformed. -/
def ofOption : Option α → Except Error α
  | some a => .ok a
  | none => .error malformed

end Error

end SearchQuery
