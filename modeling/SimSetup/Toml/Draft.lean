import SimSetup.Toml.Outline

/-!
# Tables while they are being made

Whether an entry may still be added to a table depends on how the table came about: by a header of
its own, on the way to a longer header, or by dots in the key of an entry. A draft remembers that;
the finished table does not.
-/

namespace SimSetup.Toml

inductive Origin
  | header
  | passing
  | dotted
  deriving DecidableEq, Repr

inductive Node
  | value (v : Value)
  | table (origin : Origin) (entries : List (String × Node))
  /-- The tables of an array that headers add to, one for each header. -/
  | tables (elements : List (List (String × Node)))

abbrev Draft := List (String × Node)

mutual

def Node.finish : Node → Value
  | .value v => v
  | .table _ entries => .table (Draft.finish entries)
  | .tables elements => .array (Draft.finishAll elements)

def Draft.finish : Draft → Table
  | [] => []
  | (key, node) :: rest => (key, Node.finish node) :: Draft.finish rest

def Draft.finishAll : List Draft → List Value
  | [] => []
  | entries :: rest => .table (Draft.finish entries) :: Draft.finishAll rest

end

namespace Draft

def replace (d : Draft) (key : String) (node : Node) : Draft :=
  d.map fun (k, old) => if k = key then (k, node) else (k, old)

def erase (d : Draft) (key : String) : Draft := d.filter (·.1 ≠ key)

def add? (d : Draft) (key : String) (node : Node) : Option Draft :=
  if (d.lookup key).isSome then none else some (d ++ [(key, node)])

/-- Applies `edit` to the table that `parents` lead to, making the tables that are missing. In an
array of tables the way leads through its last element. Dotted keys do not enter a table that has a
header. -/
def descend (dotted : Bool) (edit : Origin → Draft → Option Draft) :
    (parents : List String) → Origin → Draft → Option Draft
  | [], origin, d => edit origin d
  | key :: parents, _, d =>
    match d.lookup key with
    | none => do
      let origin := if dotted then Origin.dotted else .passing
      let made ← descend dotted edit parents origin []
      return d ++ [(key, .table origin made)]
    | some (.value _) => none
    | some (.table origin entries) =>
      if dotted && origin = .header then none
      else do
        let entries ← descend dotted edit parents origin entries
        return d.replace key (.table origin entries)
    | some (.tables elements) =>
      match elements.getLast? with
      | none => none
      | some entries => do
        let entries ← descend dotted edit parents .header entries
        return d.replace key (.tables (elements.dropLast ++ [entries]))

/-- An entry with dots in its key goes only where dots alone have led. -/
def addEntry (d : Draft) (entry : Entry) : Option Draft :=
  let ⟨parents, key⟩ := entry.path
  descend true (fun origin table =>
    if parents ≠ [] ∧ origin ≠ .dotted then none else table.add? key (.value entry.value))
    parents .header d

def addEntries (d : Draft) (entries : List Entry) : Option Draft := entries.foldlM addEntry d

/-- A header opens a table of its own once; before that the table may have been passed. -/
def addTable (key : String) (entries : List Entry) (d : Draft) : Option Draft := do
  let start ← match d.lookup key with
    | none => some []
    | some (.table .passing start) => some start
    | some _ => none
  return d.erase key ++ [(key, .table .header (← addEntries start entries))]

def addElement (key : String) (entries : List Entry) (d : Draft) : Option Draft := do
  let element ← addEntries [] entries
  match d.lookup key with
  | none => return d ++ [(key, .tables [element])]
  | some (.tables elements) => return d.replace key (.tables (elements ++ [element]))
  | some _ => none

def addSection (d : Draft) (s : Section) : Option Draft :=
  match s.header with
  | .table ⟨parents, key⟩ =>
    descend false (fun _ table => table.addTable key s.entries) parents .header d
  | .element ⟨parents, key⟩ =>
    descend false (fun _ table => table.addElement key s.entries) parents .header d

end Draft

def Outline.toTable? (o : Outline) : Option Table := do
  let draft ← Draft.addEntries [] o.entries
  let draft ← o.sections.foldlM Draft.addSection draft
  return draft.finish

end SimSetup.Toml
