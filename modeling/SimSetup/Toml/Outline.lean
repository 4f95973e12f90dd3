import SimSetup.Toml.Value

/-!
# Outlines of documents

What a document says line by line: entries, and sections of entries under headers. `Outline.ofTable`
lays a table out. A table in the document gets a section of its own, unless it holds nothing but
further tables; so does each element of an array that holds tables and nothing else.
-/

namespace SimSetup.Toml

/-- Where an entry goes: through the tables that `parents` name, under `key`. -/
structure Path where
  parents : List String
  key : String
  deriving DecidableEq, Repr

def Path.toList (p : Path) : List String := p.parents ++ [p.key]

def Path.ofList? (keys : List String) : Option Path :=
  keys.getLast?.map fun key => ⟨keys.dropLast, key⟩

structure Entry where
  path : Path
  value : Value

inductive Header
  | table (path : Path)
  /-- Opens a new element of an array of tables. -/
  | element (path : Path)

structure Section where
  header : Header
  entries : List Entry

structure Outline where
  entries : List Entry
  sections : List Section

def Value.isHeaded : Value → Bool
  | .table _ => true
  | .array items => !items.isEmpty && items.all Value.isTable
  | _ => false

def plainEntries (t : Table) : List Entry :=
  (t.filter fun (_, v) => !v.isHeaded).map fun (key, v) => ⟨⟨[], key⟩, v⟩

mutual

/-- The sections of a headed value at a path; of any other there are none. -/
def valueSections (path : Path) : Value → List Section
  | .table entries =>
    let plain := plainEntries entries
    (if plain.isEmpty && !entries.isEmpty then [] else [⟨.table path, plain⟩])
      ++ tableSections path.toList entries
  | .array items => if (Value.array items).isHeaded then elementSections path items else []
  | _ => []

def tableSections (parents : List String) : Table → List Section
  | [] => []
  | (key, v) :: rest => valueSections ⟨parents, key⟩ v ++ tableSections parents rest

def elementSections (path : Path) : List Value → List Section
  | [] => []
  | .table entries :: rest =>
    ⟨.element path, plainEntries entries⟩ ::
      (tableSections path.toList entries ++ elementSections path rest)
  | _ :: rest => elementSections path rest

end

def Outline.ofTable (t : Table) : Outline := ⟨plainEntries t, tableSections [] t⟩

end SimSetup.Toml
