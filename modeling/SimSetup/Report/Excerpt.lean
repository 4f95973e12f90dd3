import SimSetup.Report.Ink
import SimSetup.Report.Line
import SimSetup.Text.Width

/-!
# Excerpts with a mark

An excerpt shows the lines of a text that a mark touches, and under them what the mark says. A mark
within a line is underlined; one across lines is bracketed in the margin, and the lines between its
first and its last are left out.
-/

namespace SimSetup.Report

/-- Counts characters; a mark covers at least one. -/
structure Mark where
  start : Nat
  stop : Nat
  message : String

def Mark.covers (m : Mark) (offset : Nat) : Bool := m.start ≤ offset && offset < m.stop

def Mark.last (m : Mark) : Nat := m.stop - 1

def spaces (n : Nat) : String := .ofList (List.replicate n ' ')

def Line.shown (l : Line) : List Char := (l.chars.reverse.dropWhile Text.isBlank).reverse

def tabStop : Nat := 4

def columns (index : Nat) (c : Char) : Nat :=
  if c = '\t' then tabStop - index % tabStop
  else if Text.isBlank c then 1
  else Text.width c

def placeWidths (l : Line) (n : Nat) : List Nat :=
  let widths := l.shown.mapIdx columns
  (List.range n).map fun i => widths[i]?.getD 1

def strokes (c : Char) (n : Nat) : String := paintEach .fault (List.replicate n c)

structure Frame where
  /-- Digits of the largest line number that is shown. -/
  digits : Nat

namespace Frame

def numbered (f : Frame) (index : Nat) : String :=
  let n := toString (index + 1)
  " " ++ paint .margin (spaces (f.digits - n.length) ++ n ++ " │") ++ " "

def unnumbered (f : Frame) (bar : String) : String :=
  " " ++ paint .faintMargin (spaces (f.digits + 1) ++ bar) ++ " "

def top (f : Frame) (place : String) : List String :=
  [spaces (f.digits + 2) ++ paint .margin "╭" ++ paint .margin "─" ++ paint .margin "[" ++ place
      ++ paint .margin "]",
    spaces (f.digits + 2) ++ paint .margin "│"]

def bottom (f : Frame) : String :=
  paint .margin (.ofList (List.replicate (f.digits + 2) '─' ++ ['╯']))

end Frame

def paintLine (m : Mark) (l : Line) : String :=
  String.join (l.shown.mapIdx fun i c =>
    let ink := if m.covers (l.start + i) then Ink.fault else .context
    if Text.isBlank c then paintEach ink (List.replicate (columns i c) ' ')
    else paint ink (.singleton c))

def margin : Nat := 2

/-- The rows of a mark within a line: the line, an underline with a stem in its middle, and the
message at the end of the stem. -/
def inlineRows (f : Frame) (m : Mark) (index : Nat) (l : Line) : List String :=
  let stem := (m.start + m.stop) / 2 - l.start
  let widths := placeWidths l (m.stop - l.start + margin)
  let underline (i width : Nat) : String :=
    if i = stem then strokes '┬' (min width 1) ++ strokes '─' (width - 1)
    else if m.covers (l.start + i) then strokes '─' width
    else spaces width
  let arrow (i width : Nat) : String :=
    if i = stem then strokes '╰' (min width 1) ++ strokes '─' (width - 1)
    else if stem < i then strokes '─' width
    else spaces width
  [f.numbered index ++ paintLine m l,
    f.unnumbered "│" ++ String.join (widths.mapIdx underline),
    f.unnumbered "│" ++ String.join (widths.mapIdx arrow) ++ " " ++ m.message]

def bracketRow (f : Frame) (corner : Char) (m : Mark) (index : Nat) (l : Line) : String :=
  f.numbered index ++ paintEach .fault [corner, '─', '▶', ' '] ++ paintLine m l

def gapRow (f : Frame) : String := f.unnumbered "┆" ++ paint .fault "┆" ++ "   "

def messageRows (f : Frame) (m : Mark) (l : Line) : List String :=
  let width := (placeWidths l (l.chars.length + margin)).foldl (· + ·) 0
  [f.unnumbered "│" ++ paint .fault "│" ++ "   " ++ spaces width,
    f.unnumbered "│" ++ paintEach .fault ['╰', '─', '─', '─'] ++ strokes '─' width ++ " "
      ++ m.message]

/-- The rows of a mark across lines. A mark that ends beyond the text has no last line. -/
def bracketRows (f : Frame) (m : Mark) (all : List Line) (first last : Nat) : List String :=
  let opening := match all[first]? with
    | some l => [bracketRow f '╭' m first l]
    | none => []
  let ending := match all[last]? with
    | some l => if m.last < l.stop then bracketRow f '├' m last l :: messageRows f m l else []
    | none => []
  let between := if ending.isEmpty then last - first else last - first - 1
  opening ++ (if between = 0 then [] else [gapRow f]) ++ ending

/-- The rows that show the mark. A mark that starts in the last line and ends beyond it shows
nothing. -/
def markRows (f : Frame) (m : Mark) (all : List Line) (first last : Nat) : List String :=
  if first = last then
    match all[first]? with
    | some l => if m.stop ≤ l.stop then inlineRows f m first l else [f.unnumbered "│"]
    | none => []
  else bracketRows f m all first last

/-- The excerpt, under a heading that names the file and the place where the mark starts; nothing
when the mark lies beyond the text. -/
def excerpt (file : String) (text : List Char) (m : Mark) : List String :=
  match lineOf? text m.start, lineOf? text m.last with
  | some first, some last =>
    let all := lines text
    let column := m.start - (all[first]?.elim 0 Line.start) + 1
    let f : Frame := ⟨(toString (last + 1)).length⟩
    f.top (file ++ ":" ++ toString (first + 1) ++ ":" ++ toString column)
      ++ markRows f m all first last ++ [f.bottom]
  | _, _ => []

end SimSetup.Report
