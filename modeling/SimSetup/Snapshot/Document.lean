import SimSetup.Snapshot.Record
import SimSetup.Toml.Document
import SimSetup.Toml.Writer

/-!
# Snapshots of a setup

A snapshot is a document that holds a list of boundaries, each as one record. A document that is not
made of records is refused as a whole; of records that build no boundary the first is the fault.
-/

namespace SimSetup.Snapshot

inductive Fault
  /-- The text is no document of records. -/
  | unreadable
  /-- A boundary holds a value that a document cannot. -/
  | unwritable
  | boundary (index : Nat) (cause : Boundary.Fault)
  deriving DecidableEq, Repr

def recordsKey : String := "iolets"

def encode (boundaries : List Boundary) : Option Toml.Table := do
  let records ← boundaries.mapM fun b => (Record.ofBoundary b).encode
  return [(recordsKey, .array (records.map .table))]

def decode (t : Toml.Table) : Option (List Record) :=
  match t.lookup recordsKey with
  | none => some []
  | some (.array items) => items.mapM Record.decode
  | some _ => none

/-- The boundaries of records that are numbered from `index` on. -/
def buildFrom (index : Nat) : List Record → Except Fault (List Boundary)
  | [] => .ok []
  | r :: rs =>
    match r.build with
    | .ok b => (buildFrom (index + 1) rs).map (b :: ·)
    | .error cause => .error (.boundary index cause)

def build (records : List Record) : Except Fault (List Boundary) := buildFrom 0 records

/-- How a table becomes a text and how it is read from one. -/
structure Codec where
  write : Toml.Table → String
  read : String → Option Toml.Table

def writeWith (c : Codec) (boundaries : List Boundary) : Except Fault String :=
  match encode boundaries with
  | some t => .ok (c.write t)
  | none => .error .unwritable

def readWith (c : Codec) (text : String) : Except Fault (List Boundary) :=
  match (c.read text).bind decode with
  | some records => build records
  | none => .error .unreadable

def toml : Codec := ⟨Toml.write, Toml.read⟩

def write (boundaries : List Boundary) : Except Fault String := writeWith toml boundaries

def read (text : String) : Except Fault (List Boundary) := readWith toml text

end SimSetup.Snapshot
