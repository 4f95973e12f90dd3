/-!
# Coloured text
-/

namespace SimSetup.Report

inductive Ink
  /-- What the report is about. -/
  | fault
  /-- The text around it. -/
  | context
  | margin
  /-- The margin of rows that show no text. -/
  | faintMargin
  deriving DecidableEq, Repr

/-- Selects the colour on a terminal. -/
def Ink.code : Ink → String
  | fault => "31"
  | context => "38;5;249"
  | margin => "38;5;246"
  | faintMargin => "38;5;240"

def paint (ink : Ink) (text : String) : String :=
  "\x1b[" ++ ink.code ++ "m" ++ text ++ "\x1b[0m"

def paintEach (ink : Ink) (cs : List Char) : String :=
  String.join (cs.map fun c => paint ink (.singleton c))

end SimSetup.Report
