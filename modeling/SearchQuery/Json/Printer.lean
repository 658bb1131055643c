import SearchQuery.Json.Basic

/-!
The text of a JSON value, on one line or indented. Members keep their order.
-/

namespace SearchQuery.Json

/-- The white space of a layout: what starts a line at a given depth, and what follows a colon. -/
structure Layout where
  line : Nat → String
  afterColon : String

namespace Layout

def compact : Layout := ⟨fun _ => "", ""⟩

/-- Two spaces for each level of nesting. -/
def indented : Layout := ⟨fun depth => String.ofList ('\n' :: List.replicate (2 * depth) ' '), " "⟩

end Layout

/-- Only quotes, backslashes and controls are escaped. -/
def escaped (c : Char) : List Char :=
  match c with
  | '"' => ['\\', '"']
  | '\\' => ['\\', '\\']
  | '\x08' => ['\\', 'b']
  | '\x0c' => ['\\', 'f']
  | '\n' => ['\\', 'n']
  | '\r' => ['\\', 'r']
  | '\t' => ['\\', 't']
  | c =>
    if c.toNat < 0x20 then
      let digits := Nat.toDigits 16 c.toNat
      ['\\', 'u'] ++ List.replicate (4 - digits.length) '0' ++ digits
    else [c]

def quoted (s : String) : String := String.ofList ('"' :: s.toList.flatMap escaped ++ ['"'])

mutual

def render (layout : Layout) (depth : Nat) : Json → String
  | .null => "null"
  | .bool b => if b then "true" else "false"
  | .number n => n.text
  | .string s => quoted s
  | .array [] => "[]"
  | .array (v :: rest) =>
    "[" ++ layout.line (depth + 1) ++ render layout (depth + 1) v ++
      renderItems layout (depth + 1) rest ++ layout.line depth ++ "]"
  | .object [] => "\x7b\x7d"
  | .object ((n, v) :: rest) =>
    "\x7b" ++ layout.line (depth + 1) ++ quoted n ++ ":" ++ layout.afterColon ++
      render layout (depth + 1) v ++ renderMembers layout (depth + 1) rest ++
      layout.line depth ++ "\x7d"

/-- Each further item after a comma. -/
def renderItems (layout : Layout) (depth : Nat) : List Json → String
  | [] => ""
  | v :: rest =>
    "," ++ layout.line depth ++ render layout depth v ++ renderItems layout depth rest

def renderMembers (layout : Layout) (depth : Nat) : List (String × Json) → String
  | [] => ""
  | (n, v) :: rest =>
    "," ++ layout.line depth ++ quoted n ++ ":" ++ layout.afterColon ++ render layout depth v ++
      renderMembers layout depth rest

end

def text (v : Json) : String := render .compact 0 v

def indentedText (v : Json) : String := render .indented 0 v

end SearchQuery.Json
