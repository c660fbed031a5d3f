/-
Plain text, for where no terminal reads it.

A terminal takes some characters as instructions: an escape character begins a sequence, and a
lone control character acts by itself.  Plain text is what is left without them.  A tab, a line
end, a carriage return or a form feed stays, and where it stands in a sequence that a terminal
carries out at once, it ends that sequence.  Text without instructions is plain already
(`plain_of_isPrinted`).
-/
namespace AppRoutes.Terminal

/-- What a character of a text belongs to. -/
inductive Mode where
  | text
  /-- A sequence after the escape character. -/
  | escape
  /-- An escape sequence that has yet to reach its last character. -/
  | intermediate
  | control
  | device
  /-- The body of a string for a device or for a program. -/
  | string
  | command
  deriving DecidableEq

/-- White space that is not an instruction. -/
def isSpacing (c : Char) : Bool := c = '\t' || c = '\n' || c = '\x0c' || c = '\r'

def isPrinted (c : Char) : Bool := isSpacing c || (0x20 ≤ c.toNat && c.toNat ≠ 0x7F)

/-- Whether the code of a character lies between two bounds, both included. -/
def isWithin (low high : Nat) (c : Char) : Bool := low ≤ c.toNat && c.toNat ≤ high

namespace Mode

def keeps : Mode → Char → Bool
  | .text, c => isPrinted c
  | .escape, c | .intermediate, c | .control, c => isSpacing c
  | .device, _ | .string, _ | .command, _ => false

/-- What the character after an escape character introduces. -/
def introducedBy (c : Char) : Mode :=
  if c = '[' then .control
  else if c = ']' then .command
  else if c = 'P' then .device
  else if c = 'X' || c = '^' || c = '_' then .string
  else if isWithin 0x20 0x2F c then .intermediate
  else if isWithin 0x30 0x7E c || isSpacing c then .text
  else .escape

/-- What follows a character.  An escape character begins a sequence wherever it stands, and a
cancelling one ends it.  Text comes as bytes, and in a string the byte that is a terminator on its
own also ends the string from within a character. -/
def next (mode : Mode) (c : Char) : Mode :=
  if c = '\x1b' then .escape
  else if c = '\x18' || c = '\x1a' then .text
  else
    match mode with
    | .text => .text
    | .escape => introducedBy c
    | .intermediate => if isWithin 0x30 0x7E c || isSpacing c then .text else .intermediate
    | .control => if isWithin 0x40 0x7E c || isSpacing c then .text else .control
    | .device => if isWithin 0x40 0x7E c then .string else .device
    | .string => if (String.utf8EncodeChar c).contains 0x9C then .text else .string
    | .command => if c = '\x07' then .text else .command

end Mode

/-- The plain part of a text that begins in a mode. -/
def plainFrom : Mode → List Char → List Char
  | _, [] => []
  | mode, c :: rest =>
    if mode.keeps c then c :: plainFrom (mode.next c) rest else plainFrom (mode.next c) rest

def plain (text : List Char) : List Char := plainFrom .text text

theorem next_text_of_isPrinted {c : Char} (h : isPrinted c = true) : Mode.text.next c = .text := by
  have hne : c ≠ '\x1b' := by
    rintro rfl
    exact absurd h (by decide)
  rw [Mode.next, if_neg hne]
  split <;> rfl

theorem plain_of_isPrinted {text : List Char} (h : ∀ c ∈ text, isPrinted c = true) :
    plain text = text := by
  induction text with
  | nil => rfl
  | cons c rest ih =>
    have hc := h c List.mem_cons_self
    have hkeeps : Mode.text.keeps c = true := hc
    rw [plain, plainFrom, if_pos hkeeps, next_text_of_isPrinted hc]
    exact congrArg _ (ih fun c hmem => h c (List.mem_cons_of_mem _ hmem))

end AppRoutes.Terminal
