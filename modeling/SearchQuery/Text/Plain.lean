/-!
Text for an output that is no terminal: control sequences are left out, and so are all control
characters but white space. A text without controls stays as it is.
-/

namespace SearchQuery.Text

/-- The control sequence that a text is in: none, one that has just begun or has its intermediate
characters, one with parameters, a string, or an operating system command. -/
inductive ControlSequence where
  | none
  | escape
  | intermediate
  | parameters
  | string
  | command
deriving DecidableEq

namespace ControlSequence

/-- Whether the encoding of a character holds the byte that terminates a string. -/
def terminatesString (c : Char) : Bool := c.toString.toUTF8.toList.contains 0x9c

/-- What is left of a sequence after one more character. -/
def next (s : ControlSequence) (c : Char) : ControlSequence :=
  match s with
  | none => none
  | escape =>
    if c = '[' then parameters
    else if c = ']' then command
    else if c = 'P' ∨ c = 'X' ∨ c = '^' ∨ c = '_' then string
    else if ' ' ≤ c ∧ c ≤ '/' then intermediate
    else if '0' ≤ c ∧ c ≤ '~' then none
    else escape
  | intermediate => if '0' ≤ c ∧ c ≤ '~' then none else intermediate
  | parameters => if '@' ≤ c ∧ c ≤ '~' then none else parameters
  | string => if terminatesString c then none else string
  | command => if c = '\x07' then none else command

/-- Strings and commands hide all that they hold; the other sequences let white space through. -/
def hidesBlanks : ControlSequence → Bool
  | string | command => true
  | none | escape | intermediate | parameters => false

end ControlSequence

/-- The text kept so far, in reverse, and whether the next character is text. Text may also stand in
the middle of a sequence, which goes on after the next control character. -/
structure Stripped where
  kept : List Char
  sequence : ControlSequence
  inText : Bool

namespace Stripped

def isBlank (c : Char) : Bool := c = '\t' || c = '\n' || c = '\x0c' || c = '\r'

/-- Characters outside ASCII are shown, whatever they are. -/
def isShown (c : Char) : Bool := isBlank c || ' ' ≤ c && c ≠ '\x7f'

def keep (s : Stripped) (c : Char) : Stripped :=
  ⟨c :: s.kept, if c.toNat < 0x80 then s.sequence else .none, true⟩

/-- One more character; an escape begins a sequence, and cancel and substitute end one. -/
def step (s : Stripped) (c : Char) : Stripped :=
  if c = '\x1b' then ⟨s.kept, .escape, false⟩
  else if c = '\x18' ∨ c = '\x1a' then ⟨s.kept, .none, true⟩
  else if s.inText then
    if isShown c then s.keep c else { s with inText := s.sequence = .none }
  else if isBlank c ∧ !s.sequence.hidesBlanks then s.keep c
  else
    let rest := s.sequence.next c
    ⟨s.kept, rest, rest = .none⟩

theorem foldl_step_of_isShown (kept cs : List Char) (h : ∀ c ∈ cs, isShown c) :
    cs.foldl step ⟨kept, .none, true⟩ = ⟨cs.reverse ++ kept, .none, true⟩ := by
  induction cs generalizing kept with
  | nil => rfl
  | cons c cs ih =>
    have hc := h c (.head cs)
    have hstep : step ⟨kept, .none, true⟩ c = ⟨c :: kept, .none, true⟩ := by
      have h1 : c ≠ '\x1b' := by rintro rfl; exact absurd hc (by decide)
      have h2 : c ≠ '\x18' := by rintro rfl; exact absurd hc (by decide)
      have h3 : c ≠ '\x1a' := by rintro rfl; exact absurd hc (by decide)
      simp [step, keep, h1, h2, h3, hc]
    rw [List.foldl_cons, hstep, ih _ fun d hd => h d (.tail c hd)]
    simp

end Stripped

def plain (s : String) : String :=
  String.ofList (s.toList.foldl Stripped.step ⟨[], .none, true⟩).kept.reverse

theorem plain_of_isShown {s : String} (h : ∀ c ∈ s.toList, Stripped.isShown c) : plain s = s := by
  simp [plain, Stripped.foldl_step_of_isShown [] s.toList h]

end SearchQuery.Text
