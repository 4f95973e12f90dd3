import SimSetup.Text.Property

/-!
# Lines of a text

Any of the line-breaking characters ends a line and belongs to it; a carriage return and the line
feed after it end one line together.
-/

namespace SimSetup.Report

def isBreak (c : Char) : Bool :=
  c = '\n' || c = '\r' || c = '\x0b' || c = '\x0c' || c = '\u0085' || c = '\u2028' || c = '\u2029'

structure Line where
  start : Nat
  chars : List Char
  deriving Repr

def Line.stop (l : Line) : Nat := l.start + l.chars.length

def firstLine : List Char → List Char × List Char
  | [] => ([], [])
  | '\r' :: '\n' :: rest => (['\r', '\n'], rest)
  | c :: rest =>
    if isBreak c then ([c], rest)
    else
      let (line, rest) := firstLine rest
      (c :: line, rest)

theorem firstLine_append (cs : List Char) : (firstLine cs).1 ++ (firstLine cs).2 = cs := by
  fun_induction firstLine cs <;> simp_all

theorem firstLine_ne_nil {cs : List Char} (h : cs ≠ []) : (firstLine cs).1 ≠ [] := by
  fun_cases firstLine cs <;> simp_all

theorem length_firstLine_lt (c : Char) (cs : List Char) :
    (firstLine (c :: cs)).2.length < (c :: cs).length := by
  have h := congrArg List.length (firstLine_append (c :: cs))
  have := List.length_pos_iff.2 (firstLine_ne_nil (List.cons_ne_nil c cs))
  rw [List.length_append] at h
  omega

def linesFrom (start : Nat) : List Char → List Line
  | [] => []
  | c :: cs =>
    let line := firstLine (c :: cs)
    ⟨start, line.1⟩ :: linesFrom (start + line.1.length) line.2
termination_by cs => cs.length
decreasing_by exact length_firstLine_lt c cs

/-- A text without characters has one line. -/
def lines (text : List Char) : List Line :=
  match text with
  | [] => [⟨0, []⟩]
  | _ => linesFrom 0 text

/-- The line of a character, counted from zero. The end of the text belongs to the last line; beyond
it there is none. -/
def lineOf? (text : List Char) (offset : Nat) : Option Nat :=
  if offset ≤ text.length then
    some ((lines text).findIdx? (offset < ·.stop) |>.getD ((lines text).length - 1))
  else none

end SimSetup.Report
