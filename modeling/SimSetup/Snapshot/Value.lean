import SimSetup.Boundary.Value
import SimSetup.Decimal.Reading
import SimSetup.Toml.Value

/-!
# Attribute values in a document

A vector is stored as a table of its components and a list as an array. Nothing has no form of its
own there, so a value that is or holds nothing cannot be stored. Three numbers in an array are read
as a vector.
-/

namespace SimSetup.Boundary.Value

def encodeVector (v : Vec Float) : Toml.Value :=
  .table (Axis.all.map fun axis => (axis.label, .float (v.get axis)))

mutual

def encode : Value → Option Toml.Value
  | none => .none
  | number x => some (.float x)
  | text s => some (.string s)
  | vector v => some (encodeVector v)
  | list items => (encodeItems items).map .array

def encodeItems : List Value → Option (List Toml.Value)
  | [] => some []
  | v :: vs => do return (← v.encode) :: (← encodeItems vs)

end

def ofInteger (n : Int) : Float := Decimal.nearest (n < 0) ⟨n.natAbs, 0⟩

def decodeNumber : Toml.Value → Option Float
  | .integer n => some (ofInteger n)
  | .float x => some x
  | _ => .none

/-- A table with a number for each component; what else it holds does not matter. -/
def decodeComponents (t : Toml.Table) : Option (Vec Float) := do
  let component (axis : Axis) := (t.lookup axis.label).bind decodeNumber
  return ⟨← component .x, ← component .y, ← component .z⟩

mutual

def decode : Toml.Value → Option Value
  | .integer n => some (.number (ofInteger n))
  | .float x => some (.number x)
  | .string s => some (.text s)
  | .table t => (decodeComponents t).map .vector
  | .array items => (decodeItems items).map ofItems
  | .boolean _ | .datetime _ => .none

def decodeItems : List Toml.Value → Option (List Value)
  | [] => some []
  | v :: vs => do return (← decode v) :: (← decodeItems vs)

end

end SimSetup.Boundary.Value
