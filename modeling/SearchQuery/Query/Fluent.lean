import SearchQuery.Query.Basic

/-!
Composing a query one operation at a time, every argument given.
-/

namespace SearchQuery.Query

def filter (q : Query) (predicate : Expr) : Query := q.push (.filter (some predicate))

def query (q : Query) (predicate : Expr) : Query := q.push (.query (some predicate))

def queryString (q : Query) (text : String) : Query := q.push (.queryString (some text))

def orderBy (q : Query) (key : Expr) : Query := q.push (.orderBy (some key) false false)

def orderByDescending (q : Query) (key : Expr) : Query := q.push (.orderBy (some key) true false)

def thenBy (q : Query) (key : Expr) : Query := q.push (.orderBy (some key) false true)

def thenByDescending (q : Query) (key : Expr) : Query := q.push (.orderBy (some key) true true)

def orderByScore (q : Query) : Query := q.push (.orderByScore false false)

def orderByScoreDescending (q : Query) : Query := q.push (.orderByScore true false)

def thenByScore (q : Query) : Query := q.push (.orderByScore false true)

def thenByScoreDescending (q : Query) : Query := q.push (.orderByScore true true)

def skip (q : Query) (count : Nat) : Query := q.push (.skip count)

def take (q : Query) (count : Nat) : Query := q.push (.take count)

/-- Groups the documents by a key; a constant makes one group of all of them. -/
def groupBy (q : Query) (key : Expr) : Query := q.push (.groupBy (some key))

def select (q : Query) (projection : Expr) : Query := q.push (.select (some projection))

def execute (q : Query) (terminal : Terminal) : Query := q.push (.execute terminal none)

/-- The terminal over the documents that satisfy the predicate. -/
def executeWhere (q : Query) (terminal : Terminal) (predicate : Expr) : Query :=
  q.push (.execute terminal (some predicate))

end SearchQuery.Query
