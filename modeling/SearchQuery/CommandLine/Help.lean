import SearchQuery.Text.Plain

/-!
The help of the command line: one entry per option, its description in a column of its own. The
names of options are emphasized by control sequences, which a plain output leaves out.
-/

namespace SearchQuery.CommandLine

/-- An option: what stands before its long name, the name, its value if it takes one, and its
description. -/
structure HelpEntry where
  lead : String := "      "
  name : String
  value : String := ""
  description : String

namespace HelpEntry

def column : Nat := 25

def spaces (n : Nat) : String := String.ofList (List.replicate n ' ')

def emphasized (s : String) : String := "\x1b[1m" ++ s ++ "\x1b[0m"

/-- Further lines of a description start in its column. -/
def indented (description : String) : String :=
  String.ofList (description.toList.flatMap fun c =>
    if c = '\n' then '\n' :: List.replicate column ' ' else [c])

def text (e : HelpEntry) : String :=
  e.lead ++ emphasized e.name ++ e.value ++
    spaces (column - (6 + e.name.length + e.value.length)) ++ indented e.description ++ "\n"

end HelpEntry

/-- Every variable is listed with its present value. -/
def helpEntries (environment : String → Option String) : List HelpEntry :=
  let variableNote (name : String) := " [env: " ++ name ++ "=" ++ (environment name).getD "" ++ "]"
  [{ name := "--input", value := " <INPUT>",
     description := "Path to a JSON query tree, or \"-\" for stdin [default: -]" },
   { name := "--config", value := " <CONFIG>",
     description := "Settings file (JSON)" ++ variableNote "ELASTIQ_CONFIG" },
   { name := "--index", value := " <INDEX>",
     description := "Index the request is sent to" ++ variableNote "ELASTIQ_INDEX" },
   { name := "--prefix", value := " <PREFIX>",
     description := "Dotted namespace prepended to every field name" ++
       variableNote "ELASTIQ_PREFIX" },
   { name := "--pretty", description := "Pretty-print the request body" },
   { lead := "  " ++ HelpEntry.emphasized "-h" ++ ", ", name := "--help",
     description := "Print help" }]

def helpText (environment : String → Option String) : String :=
  Text.plain <|
    "Translate a JSON query tree into a search request\n\nUsage: elastiq [OPTIONS]\n\nOptions:\n" ++
      String.join ((helpEntries environment).map HelpEntry.text)

end SearchQuery.CommandLine
