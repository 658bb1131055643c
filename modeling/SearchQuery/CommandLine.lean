import SearchQuery.CommandLine.Help
import SearchQuery.Planner
import SearchQuery.Json.Printer
import SearchQuery.Query.Json

/-!
The command line: reads a query tree and settings, and prints the body of the search request. Files
and standard input are read through functions of any monad.
-/

namespace SearchQuery.CommandLine

/-- The options that take a value. -/
inductive Setting where
  | input
  | config
  | index
  | fieldPrefix
deriving DecidableEq

namespace Setting

def ofName? : String → Option Setting
  | "input" => some input
  | "config" => some config
  | "index" => some index
  | "prefix" => some fieldPrefix
  | _ => none

/-- The environment variable that stands in for an absent option. -/
def environmentName? : Setting → Option String
  | input => none
  | config => some "ELASTIQ_CONFIG"
  | index => some "ELASTIQ_INDEX"
  | fieldPrefix => some "ELASTIQ_PREFIX"

def environmentNames : List String := [config, index, fieldPrefix].filterMap environmentName?

/-- A path to a file may not be empty. -/
def accepts (s : Setting) (value : String) : Bool := !(s = config && value.isEmpty)

end Setting

structure Given where
  values : List (Setting × String) := []
  pretty : Bool := false

/-- Why a command line asks for no request. -/
inductive Refusal where
  | help
  | misuse
deriving DecidableEq

namespace Given

def value? (g : Given) (s : Setting) : Option String := g.values.lookup s

/-- An option is given once. -/
def set (g : Given) (s : Setting) (value : String) : Except Refusal Given :=
  if (g.value? s).isSome ∨ !s.accepts value then .error .misuse
  else .ok { g with values := (s, value) :: g.values }

def setPretty (g : Given) : Except Refusal Given :=
  if g.pretty then .error .misuse else .ok { g with pretty := true }

/-- An argument that can not be the value of an option before it. -/
def isOption (arg : String) : Bool := arg.startsWith "-" && arg ≠ "-"

/-- The name of a long option, and the value that is attached to it. -/
def long? (arg : String) : Option (String × Option String) :=
  match arg.toList with
  | '-' :: '-' :: rest =>
    match rest.span (· ≠ '=') with
    | (name, []) => some (String.ofList name, none)
    | (name, _ :: value) => some (String.ofList name, some (String.ofList value))
  | _ => none

/-- Takes the arguments in turn; the first that is wrong, or asks for help, ends it. -/
def ofArguments (g : Given) : List String → Except Refusal Given
  | [] => .ok g
  | arg :: rest =>
    match long? arg with
    | some ("", none) => if rest.isEmpty then .ok g else .error .misuse
    | some ("help", none) => .error .help
    | some ("pretty", none) => do (← g.setPretty).ofArguments rest
    | some (name, attached) =>
      match Setting.ofName? name, attached, rest with
      | some s, some value, rest => do (← g.set s value).ofArguments rest
      | some s, none, value :: rest =>
        if isOption value then .error .misuse else do (← g.set s value).ofArguments rest
      | _, _, _ => .error .misuse
    | none => if arg.startsWith "-h" then .error .help else .error .misuse

/-- An option of the command line or the variable that stands in for it. -/
def resolve (g : Given) (environment : String → Option String) (s : Setting) :
    Except Refusal (Option String) :=
  match g.value? s with
  | some value => .ok (some value)
  | none =>
    match s.environmentName?.bind environment with
    | some value => if s.accepts value then .ok (some value) else .error .misuse
    | none => .ok none

end Given

structure Options where
  input : String
  config : Option String
  index : Option String
  fieldPrefix : Option String
  pretty : Bool

def Options.read (environment : String → Option String) (args : List String) :
    Except Refusal Options := do
  let g ← Given.ofArguments {} args
  return {
    input := (g.value? .input).getD "-"
    config := ← g.resolve environment .config
    index := ← g.resolve environment .index
    fieldPrefix := ← g.resolve environment .fieldPrefix
    pretty := g.pretty }

structure Outcome where
  status : UInt8
  output : String

namespace Outcome

def failure : Outcome := ⟨1, ""⟩

def misuse : Outcome := ⟨2, ""⟩

end Outcome

def readable : Option String → Except Error String
  | some text => .ok text
  | none => .error .unreadable

/-- The settings of a run: those of the file, valid on their own, and the options over them. -/
def Options.settings (o : Options) (file : Option (Option String)) : Except Error Settings := do
  let s ←
    match file with
    | none => pure {}
    | some content => Settings.ofText (← readable content)
  return { s with index := o.index.or s.index, fieldPrefix := o.fieldPrefix.getD s.fieldPrefix }

/-- The body of the request for the query tree in a text, given the content of the settings file if
one was named. -/
def Options.requestText (o : Options) (file : Option (Option String)) (tree : Option String) :
    Except Error String := do
  let planner ← Planner.ofSettings (← o.settings file)
  let query ← Error.ofOption (Json.ofText? .any (← readable tree) >>= Query.ofJson?)
  let p ← planner.plan query
  return if o.pretty then p.request.toJson.indentedText else p.request.toJson.text

/-- Runs a command line; a file that can not be read reads as none. -/
def run [Monad m] (environment : String → Option String) (readFile : String → m (Option String))
    (readInput : m (Option String)) (args : List String) : m Outcome := do
  match Options.read environment args with
  | .error .help => return ⟨0, helpText environment⟩
  | .error .misuse => return .misuse
  | .ok o =>
    let file ← o.config.mapM readFile
    let tree ← if o.input = "-" then readInput else readFile o.input
    match o.requestText file tree with
    | .ok body => return ⟨0, body ++ "\n"⟩
    | .error _ => return .failure

end SearchQuery.CommandLine
