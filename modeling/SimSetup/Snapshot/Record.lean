import SimSetup.Boundary.Basic
import SimSetup.Snapshot.Value

/-!
# Boundaries in a document

A record holds the kind of a boundary and its attributes. An attribute without a value is left out
when its default has none either; otherwise it is listed as unset. Reading takes the kind also from
a table with one key and nothing under it.
-/

namespace SimSetup

namespace Boundary.Kind

def tag : Kind → String
  | plain => "plain"
  | sinusoidalPressure => "sinusoidal_pressure"
  | inlet => "inlet"
  | outlet => "outlet"

def all : List Kind := [plain, sinusoidalPressure, inlet, outlet]

def ofTag? (s : String) : Option Kind := all.find? (·.tag = s)

theorem ofTag?_tag (k : Kind) : ofTag? k.tag = some k := by
  cases k <;> decide

def decode : Toml.Value → Option Kind
  | .string s | .table [(s, .table [])] | .table [(s, .array [])] => ofTag? s
  | _ => none

end Boundary.Kind

namespace Snapshot

open Boundary (Attributes Kind Value)

structure Record where
  kind : Kind
  unset : List String
  attributes : Attributes

namespace Record

def kindKey : String := "kind"

def unsetKey : String := "unset"

def defaultsToNone (kind : Kind) (name : String) : Bool :=
  match kind.attributes.find? (·.label = name) with
  | some a => a.default.isNone
  | none => true

def ofBoundary (b : Boundary) : Record :=
  let attributes := b.toAttributes
  { kind := b.kind
    unset := (attributes.filter fun name v => v.isNone && !defaultsToNone b.kind name).keys
    attributes := attributes.filter fun _ v => !v.isNone }

def encodeEntry (e : String × Value) : Option (String × Toml.Value) :=
  e.2.encode.map (e.1, ·)

def decodeEntry (e : String × Toml.Value) : Option (String × Value) :=
  (Value.decode e.2).map (e.1, ·)

/-- The kind comes first and the attributes follow in increasing order of their names. -/
def encode (r : Record) : Option Toml.Table := do
  let attributes ← r.attributes.toList.mapM encodeEntry
  let unset := if r.unset.isEmpty then [] else [(unsetKey, .array (r.unset.map .string))]
  return (kindKey, .string r.kind.tag) :: (unset ++ attributes)

/-- A record need not list any attributes as unset. -/
def decodeUnset : Option Toml.Value → Option (List String)
  | none => some []
  | some (.array items) => items.mapM fun
    | .string s => some s
    | _ => none
  | some _ => none

def isAttributeKey (key : String) : Bool := key ≠ kindKey && key ≠ unsetKey

def decode : Toml.Value → Option Record
  | .table t => do
    let kind ← (t.lookup kindKey).bind Kind.decode
    let unset ← decodeUnset (t.lookup unsetKey)
    let attributes ← (t.filter fun (key, _) => isAttributeKey key).mapM decodeEntry
    return { kind, unset, attributes := .ofList attributes }
  | _ => none

/-- The attributes as they were given, and those without a value that were only listed. -/
def given (r : Record) : Attributes :=
  r.unset.foldl (fun given name => given.insertIfNew name .none) r.attributes

def build (r : Record) : Except Boundary.Fault Boundary :=
  Boundary.ofAttributes r.kind r.given

end Record

end Snapshot

end SimSetup
