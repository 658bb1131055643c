import SearchQuery.Json.Written

/-!
The value of a JSON text. Literals must denote: numbers within the range of a double, strings
without half a surrogate pair, at most 127 containers around any value. A reader that knows the
shape of what it reads skips the members it has no use for, whatever their value.
-/

namespace SearchQuery.Json

/-- What a reader has use for: everything, the declared members of a record, or a list. A record
may also be written as the array of its members. -/
inductive Shape where
  | any
  | record (members : List (String × Shape))
  | list (item : Shape)

/-- The containers that may stand around a value. -/
def depthLimit : Nat := 127

namespace Numeral

/-- An integer of 64 bits, with or without sign, stays an integer; `-0` is a float. -/
def toNumber? (n : Numeral) : Option Number :=
  if n.integral ∧ !n.negative ∧ n.coefficient < Nat.pow 2 64 then some (.int n.coefficient)
  else if n.integral ∧ n.negative ∧ n.coefficient ≠ 0 ∧ n.coefficient ≤ Nat.pow 2 63 then
    some (.int (-n.coefficient))
  else (Double.ofDecimal? n.negative n.coefficient n.exponent).map .float

end Numeral

namespace Pieces

def isHigh (n : Nat) : Bool := 0xD800 ≤ n && n < 0xDC00

def isLow (n : Nat) : Bool := 0xDC00 ≤ n && n < 0xE000

/-- Two escaped units may form one character; a unit of a pair alone is none. -/
def chars? : Pieces → Option (List Char)
  | [] => some []
  | .char c :: rest => (chars? rest).map (c :: ·)
  | .unit n :: .unit m :: rest =>
    if isHigh n then
      if isLow m then
        (chars? rest).map (Char.ofNat (0x10000 + (n - 0xD800) * 0x400 + (m - 0xDC00)) :: ·)
      else none
    else if isLow n then none
    else (chars? (.unit m :: rest)).map (Char.ofNat n :: ·)
  | .unit n :: rest =>
    if isHigh n ∨ isLow n then none else (chars? rest).map (Char.ofNat n :: ·)

def text? (ps : Pieces) : Option String := (chars? ps).map String.ofList

end Pieces

mutual

/-- The value of a text with at most `depth` further containers; members of a record that are not
declared are left out. -/
def Shape.read? (shape : Shape) (depth : Nat) : Written → Option Json
  | .null => some .null
  | .bool b => some (.bool b)
  | .number n => n.toNumber?.map .number
  | .string ps => ps.text?.map .string
  | .array items =>
    match depth with
    | 0 => none
    | depth + 1 =>
      match shape with
      | .any => (Shape.readItems? .any depth items).map .array
      | .list item => (Shape.readItems? item depth items).map .array
      | .record declared => (Shape.readPositions? (declared.map Prod.snd) depth items).map .array
  | .object members =>
    match depth with
    | 0 => none
    | depth + 1 =>
      match shape with
      | .record declared => (Shape.readDeclared? declared depth members).map .object
      | _ => (Shape.readMembers? depth members).map .object

def Shape.readItems? (item : Shape) (depth : Nat) : List Written → Option (List Json)
  | [] => some []
  | w :: rest => do
    let v ← item.read? depth w
    return v :: (← Shape.readItems? item depth rest)

/-- The members of a record by position, and no more of them than are declared. -/
def Shape.readPositions? (declared : List Shape) (depth : Nat) :
    List Written → Option (List Json)
  | [] => some []
  | w :: rest =>
    match declared with
    | [] => none
    | shape :: declared => do
      let v ← shape.read? depth w
      return v :: (← Shape.readPositions? declared depth rest)

def Shape.readMembers? (depth : Nat) : List (Pieces × Written) → Option (List (String × Json))
  | [] => some []
  | (ps, w) :: rest => do
    let name ← ps.text?
    let v ← Shape.any.read? depth w
    return (name, v) :: (← Shape.readMembers? depth rest)

def Shape.readDeclared? (declared : List (String × Shape)) (depth : Nat) :
    List (Pieces × Written) → Option (List (String × Json))
  | [] => some []
  | (ps, w) :: rest => do
    let name ← ps.text?
    match declared.lookup name with
    | some shape =>
      let v ← shape.read? depth w
      return (name, v) :: (← Shape.readDeclared? declared depth rest)
    | none => Shape.readDeclared? declared depth rest

end

/-- The value that a text holds, as written: repeated names are kept. -/
def ofText? (shape : Shape) (text : String) : Option Json :=
  Written.ofText? text >>= shape.read? depthLimit

end SearchQuery.Json
