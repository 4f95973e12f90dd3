/-!
# Places in a text

Offsets count the bytes of the text's UTF-8 form. A position counts lines and, within a line,
characters, both from one; only a line feed ends a line.
-/

namespace SimSetup.Text

def byteLength : List Char → Nat
  | [] => 0
  | c :: cs => c.utf8Size + byteLength cs

@[simp] theorem byteLength_nil : byteLength [] = 0 := rfl

@[simp] theorem byteLength_cons (c : Char) (cs : List Char) :
    byteLength (c :: cs) = c.utf8Size + byteLength cs := rfl

@[simp] theorem byteLength_append (a b : List Char) :
    byteLength (a ++ b) = byteLength a + byteLength b := by
  induction a with
  | nil => simp
  | cons c a ih => simp [ih, Nat.add_assoc]

/-- A half-open range of byte offsets. -/
structure Span where
  start : Nat
  stop : Nat
  deriving DecidableEq, Repr

structure Position where
  line : Nat
  column : Nat
  deriving DecidableEq, Repr

def Position.start : Position := ⟨1, 1⟩

def Position.advance (p : Position) (c : Char) : Position :=
  if c = '\n' then ⟨p.line + 1, 1⟩ else ⟨p.line, p.column + 1⟩

def before : Nat → List Char → List Char
  | _, [] => []
  | 0, _ => []
  | offset + 1, c :: cs => c :: before (offset + 1 - c.utf8Size) cs

/-- The position of the character at a byte offset, or of the end. -/
def position (text : List Char) (offset : Nat) : Position :=
  (before offset text).foldl Position.advance .start

end SimSetup.Text
