import SearchQuery.Json.Basic

/-!
JSON text as written: numbers are literals, strings may hold escaped halves of surrogate pairs,
objects may repeat a name and nesting is unbounded. What of this is a value is decided later, since
a reader that skips a member does not care for its value.
-/

namespace SearchQuery.Json

/-- A number literal `± coefficient * 10 ^ exponent`; `integral` when written without fraction and
exponent. -/
structure Numeral where
  negative : Bool
  coefficient : Nat
  exponent : Int
  integral : Bool

/-- A character of a string literal, or a UTF-16 unit that was written as an escape. -/
inductive Piece where
  | char (c : Char)
  | unit (n : Nat)

abbrev Pieces := List Piece

inductive Written where
  | null
  | bool (b : Bool)
  | number (n : Numeral)
  | string (ps : Pieces)
  | array (items : List Written)
  | object (members : List (Pieces × Written))

inductive Token where
  | openArray
  | closeArray
  | openObject
  | closeObject
  | comma
  | colon
  | scalar (v : Written)

namespace Numeral

def digitsValue (ds : List Char) : Nat := ds.foldl (fun n d => 10 * n + (d.toNat - 48)) 0

/-- The digits at the front, at least one, and what follows them. -/
def digits? (cs : List Char) : Option (List Char × List Char) :=
  match cs.span Char.isDigit with
  | ([], _) => none
  | split => some split

/-- The exponent part of a literal, zero when there is none. -/
def exponent? : List Char → Option (Int × List Char)
  | c :: rest =>
    if c = 'e' ∨ c = 'E' then
      let (negative, rest) :=
        match rest with
        | '+' :: rest => (false, rest)
        | '-' :: rest => (true, rest)
        | rest => (false, rest)
      (digits? rest).map fun (ds, rest) =>
        (if negative then -(digitsValue ds : Int) else digitsValue ds, rest)
    else some (0, c :: rest)
  | [] => some (0, [])

/-- A whole literal: no leading zeros, and digits on both sides of a point. -/
def ofChars? (cs : List Char) : Option Numeral := do
  let (negative, cs) :=
    match cs with
    | '-' :: rest => (true, rest)
    | cs => (false, cs)
  let (whole, afterWhole) ← digits? cs
  guard (whole.length = 1 ∨ whole.head? ≠ some '0')
  let (fraction, afterFraction) ←
    match afterWhole with
    | '.' :: rest => digits? rest
    | rest => some ([], rest)
  let (exponent, rest) ← exponent? afterFraction
  guard rest.isEmpty
  return ⟨negative, digitsValue (whole ++ fraction), exponent - fraction.length,
    afterWhole.isEmpty⟩

end Numeral

/-! ### Tokens -/

def isBlank (c : Char) : Bool := c = ' ' || c = '\t' || c = '\n' || c = '\r'

/-- Characters that stand for themselves between tokens. -/
def punctuation? : Char → Option Token
  | '[' => some .openArray
  | ']' => some .closeArray
  | '{' => some .openObject
  | '}' => some .closeObject
  | ',' => some .comma
  | ':' => some .colon
  | _ => none

/-- A word or number that stands between punctuation and blanks. -/
def word? (cs : List Char) : Option Token :=
  if cs = ['n', 'u', 'l', 'l'] then some (.scalar .null)
  else if cs = ['t', 'r', 'u', 'e'] then some (.scalar (.bool true))
  else if cs = ['f', 'a', 'l', 's', 'e'] then some (.scalar (.bool false))
  else (Numeral.ofChars? cs).map fun n => .scalar (.number n)

def hexDigit? (c : Char) : Option Nat :=
  if c.isDigit then some (c.toNat - 48)
  else if 'a' ≤ c ∧ c ≤ 'f' then some (c.toNat - 87)
  else if 'A' ≤ c ∧ c ≤ 'F' then some (c.toNat - 55)
  else none

/-- The letters that may follow a backslash, other than `u`. -/
def escape? : Char → Option Char
  | '"' => some '"'
  | '\\' => some '\\'
  | '/' => some '/'
  | 'b' => some '\x08'
  | 'f' => some '\x0c'
  | 'n' => some '\n'
  | 'r' => some '\r'
  | 't' => some '\t'
  | _ => none

/-- Where the lexer stands: between tokens, in a word, in a string, after a backslash, or in a
`\u` escape that lacks some of its four digits. -/
inductive Mode where
  | between
  | word (before : List Char)
  | string (before : Pieces)
  | backslash (before : Pieces)
  | unit (before : Pieces) (missing value : Nat)

structure Lexer where
  mode : Mode
  tokens : List Token

namespace Lexer

/-- A character that is outside every string. -/
def plain (tokens : List Token) (c : Char) : Lexer :=
  if isBlank c then ⟨.between, tokens⟩
  else if c = '"' then ⟨.string [], tokens⟩
  else
    match punctuation? c with
    | some t => ⟨.between, t :: tokens⟩
    | none => ⟨.word [c], tokens⟩

/-- Whether a character ends the word before it. -/
def endsWord (c : Char) : Bool := isBlank c || c = '"' || (punctuation? c).isSome

def step (l : Lexer) (c : Char) : Option Lexer :=
  match l.mode with
  | .between => some (plain l.tokens c)
  | .word before =>
    if endsWord c then (word? before.reverse).map fun t => plain (t :: l.tokens) c
    else some ⟨.word (c :: before), l.tokens⟩
  | .string before =>
    if c = '"' then some ⟨.between, .scalar (.string before.reverse) :: l.tokens⟩
    else if c = '\\' then some ⟨.backslash before, l.tokens⟩
    else if c.toNat < 0x20 then none
    else some ⟨.string (.char c :: before), l.tokens⟩
  | .backslash before =>
    if c = 'u' then some ⟨.unit before 4 0, l.tokens⟩
    else (escape? c).map fun e => ⟨.string (.char e :: before), l.tokens⟩
  | .unit before missing value =>
    (hexDigit? c).map fun d =>
      let value := 16 * value + d
      if missing ≤ 1 then ⟨.string (.unit value :: before), l.tokens⟩
      else ⟨.unit before (missing - 1) value, l.tokens⟩

end Lexer

def tokens? (text : String) : Option (List Token) := do
  let l ← text.toList.foldlM Lexer.step ⟨.between, []⟩
  match l.mode with
  | .between => some l.tokens.reverse
  | .word before => (word? before.reverse).map fun t => (t :: l.tokens).reverse
  | _ => none

/-! ### Nesting -/

/-- A container that is still open; the values read so far stand in reverse. A member frame awaits
the value of its name. -/
inductive Frame where
  | items (before : List Written)
  | members (before : List (Pieces × Written))
  | member (before : List (Pieces × Written)) (name : Pieces)

/-- What may come next: a value, a value or the end of an array, the name of a member, a name or the
end of an object, a colon, a comma or the end of the container, nothing more. -/
inductive Expected where
  | value
  | firstItem
  | name
  | firstName
  | colon
  | separator
  | done (v : Written)

structure Nesting where
  frames : List Frame
  expected : Expected

namespace Nesting

/-- A complete value takes its place in the innermost container. -/
def complete (v : Written) : List Frame → Option Nesting
  | [] => some ⟨[], .done v⟩
  | .items before :: frames => some ⟨.items (v :: before) :: frames, .separator⟩
  | .member before name :: frames => some ⟨.members ((name, v) :: before) :: frames, .separator⟩
  | .members _ :: _ => none

/-- Closes the innermost container with the bracket it was opened with. -/
def close (t : Token) : List Frame → Option Nesting
  | .items before :: frames =>
    match t with
    | .closeArray => complete (.array before.reverse) frames
    | _ => none
  | .members before :: frames =>
    match t with
    | .closeObject => complete (.object before.reverse) frames
    | _ => none
  | _ => none

def step (n : Nesting) (t : Token) : Option Nesting :=
  match n.expected, t with
  | .value, .openArray | .firstItem, .openArray => some ⟨.items [] :: n.frames, .firstItem⟩
  | .value, .openObject | .firstItem, .openObject => some ⟨.members [] :: n.frames, .firstName⟩
  | .value, .scalar v | .firstItem, .scalar v => complete v n.frames
  | .firstItem, .closeArray => close t n.frames
  | .firstName, .closeObject => close t n.frames
  | .name, .scalar (.string s) | .firstName, .scalar (.string s) =>
    match n.frames with
    | .members before :: frames => some ⟨.member before s :: frames, .colon⟩
    | _ => none
  | .colon, .colon => some ⟨n.frames, .value⟩
  | .separator, .comma =>
    match n.frames with
    | .items _ :: _ => some ⟨n.frames, .value⟩
    | .members _ :: _ => some ⟨n.frames, .name⟩
    | _ => none
  | .separator, t => close t n.frames
  | _, _ => none

end Nesting

/-- The one value that a text holds, surrounded by blanks only. -/
def Written.ofText? (text : String) : Option Written := do
  let ts ← tokens? text
  let n ← ts.foldlM Nesting.step ⟨[], .value⟩
  match n.expected with
  | .done v => some v
  | _ => none

end SearchQuery.Json
