import SimSetup.Boundary.Dependencies
import SimSetup.Boundary.Kind
import SimSetup.Geometry.Patch

/-!
# Boundaries across which fluid can flow

A boundary has a kind, a place and an orientation, and for most kinds a pressure. It is built from a
mapping of attribute names to values and edited by attribute paths: a name, or a name and a
component of its vector, such as `Centre.x`. Every edit that is accepted reports the derived
properties that it made stale.
-/

namespace SimSetup

/-- The pressure is kept as given, in canonical form, since only a three-component vector has an
equation; it is there exactly when the kind has one. -/
structure Boundary where
  kind : Boundary.Kind
  name : Option String
  centre : Vec Float
  normal : Vec Float
  radius : Float
  pressure : Option Boundary.Value
  dependencies : Boundary.Dependencies

namespace Boundary

instance : BEq Boundary where
  beq a b := a.kind == b.kind && a.name == b.name && a.centre == b.centre && a.normal == b.normal
    && a.radius == b.radius && a.pressure == b.pressure && a.dependencies == b.dependencies

inductive Shape
  | textOrNone
  | vector
  | number
  | noGaps
  deriving DecidableEq, Repr

def Shape.describe : Shape → String
  | textOrNone => "text or none"
  | vector => "a 3-vector"
  | number => "a number"
  | noGaps => "a value without empty list items"

inductive Fault
  /-- A mapping names an attribute that the kind does not have. -/
  | unexpected (kind : Kind) (name : String)
  /-- The attribute exists and its value has the wrong shape. -/
  | invalid (path : String) (expected : Shape)
  /-- The kind has no attribute at the path. -/
  | unknown (kind : Kind) (path : String)
  deriving DecidableEq, Repr

def Fault.message : Fault → String
  | unexpected kind name => kind.title ++ " got an unexpected argument '" ++ name ++ "'"
  | invalid path expected => "invalid value for '" ++ path ++ "': expected " ++ expected.describe
  | unknown kind path => kind.title ++ " has no attribute '" ++ path ++ "'"

def planeProperty : String := "Plane"

def equationProperty : String := "PressureEquation"

def Kind.dependencies (k : Kind) : Dependencies :=
  let geometry := [Attribute.centre, .normal, .radius].foldl
    (fun d a => d.add planeProperty a.label) .empty
  if k.hasPressure then
    let component (axis : Axis) := Attribute.pressure.label ++ "." ++ axis.label
    Axis.all.foldl (fun d axis => d.add equationProperty (component axis)) geometry
  else geometry

def new (kind : Kind) : Boundary where
  kind
  name := none
  centre := .zero
  normal := .unitZ
  radius := 0.5
  pressure := if kind.hasPressure then some Attribute.pressure.default else none
  dependencies := kind.dependencies

/-! ## Reading -/

def value? (b : Boundary) : Attribute → Option Value
  | .name => some <| match b.name with
    | some s => .text s
    | none => .none
  | .centre => some (.vector b.centre)
  | .normal => some (.vector b.normal)
  | .radius => some (.number b.radius)
  | .pressure => b.pressure

def vector? (b : Boundary) : Attribute → Option (Vec Float)
  | .centre => some b.centre
  | .normal => some b.normal
  | .pressure => b.pressure.bind Value.vector?
  | _ => none

def splitPath (path : String) : String × Option String :=
  let cs := path.toList
  (.ofList (cs.takeWhile (· ≠ '.')),
    match cs.dropWhile (· ≠ '.') with
    | [] => none
    | _ :: rest => some (.ofList rest))

def get? (b : Boundary) (path : String) : Option Value := do
  match splitPath path with
  | (name, none) => b.value? (← Attribute.ofLabel? name)
  | (name, some component) =>
    let v ← b.vector? (← Attribute.ofLabel? name)
    return .number (v.get (← Axis.ofLabel? component))

abbrev Attributes := Std.ExtTreeMap String Value

def toAttributes (b : Boundary) : Attributes :=
  .ofList (b.kind.attributes.filterMap fun a => (b.value? a).map (a.label, ·))

/-! ## Editing -/

/-- An edit may stop with a fault; the boundary is then what the edit had made of it so far. -/
abbrev Edit := ExceptT Fault (StateM Boundary)

def pressureOf (v : Value) : Except Fault Value :=
  if v.hasGap then .error (.invalid Attribute.pressure.label .noGaps) else .ok v.canonical

def require (path : String) (expected : Shape) : Option α → Edit α
  | some a => pure a
  | none => throw (.invalid path expected)

def assign (a : Attribute) (v : Value) : Edit Unit := do
  match a with
  | .name =>
    match v with
    | .none => modify ({ · with name := none })
    | .text s => modify ({ · with name := some s })
    | _ => throw (.invalid a.label .textOrNone)
  | .centre =>
    let centre ← require a.label .vector v.vector?
    modify ({ · with centre })
  | .normal =>
    let normal ← require a.label .vector v.vector?
    modify ({ · with normal })
  | .radius =>
    let radius ← require a.label .number v.number?
    modify ({ · with radius })
  | .pressure =>
    let b ← get
    if b.kind.hasPressure then
      let pressure ← liftExcept (pressureOf v)
      modify ({ · with pressure := some pressure })
    else throw (.unknown b.kind a.label)
where
  liftExcept : Except Fault Value → Edit Value
    | .ok v => pure v
    | .error e => throw e

/-- Sets one component of a vector. A component is only looked for once there is a number to put
there. -/
def assignComponent (name component : String) (v : Value) : Edit Unit := do
  let b ← get
  let path := name ++ "." ++ component
  let unknown := Fault.unknown b.kind path
  match (Attribute.ofLabel? name).bind fun a => (b.vector? a).map (a, ·) with
  | none => throw unknown
  | some (a, vec) =>
    let x ← require path .number v.number?
    match Axis.ofLabel? component with
    | none => throw unknown
    | some axis => assign a (.vector (vec.set axis x))

/-- Sets the value at a path and tells which derived properties are stale now. -/
def set (path : String) (v : Value) : Edit (List String) := do
  let b ← get
  match splitPath path with
  | (name, some component) => assignComponent name component v
  | (name, none) =>
    match b.kind.attributes.find? (·.label = name) with
    | some a => assign a v
    | none => throw (.unknown b.kind path)
  return (← get).dependencies.dependents path

def assignAll (given : Attributes) : List Attribute → Edit Unit
  | [] => pure ()
  | a :: rest => do
    assign a (given.getD a.label a.default)
    assignAll given rest

/-- A mapping may name attributes of the kind only; of several others the least is the fault. -/
def ofAttributes (kind : Kind) (given : Attributes) : Except Fault Boundary :=
  match given.keys.find? (!kind.recognizes ·) with
  | some name => .error (.unexpected kind name)
  | none =>
    match (assignAll given kind.attributes).run (new kind) with
    | (.ok (), b) => .ok b
    | (.error fault, _) => .error fault

def withName (b : Boundary) (name : String) : Boundary := { b with name := some name }

def withCentre (b : Boundary) (centre : Vec Float) : Boundary := { b with centre }

def withNormal (b : Boundary) (normal : Vec Float) : Boundary := { b with normal }

def withRadius (b : Boundary) (radius : Float) : Boundary := { b with radius }

/-- Keeps the boundary as it is when its kind has no pressure or the value cannot be one. -/
def withPressure (b : Boundary) (v : Value) : Boundary :=
  match b.kind.hasPressure, pressureOf v with
  | true, .ok pressure => { b with pressure := some pressure }
  | _, _ => b

/-! ## Derived properties -/

def plane [Trig] (b : Boundary) : Patch Float := .facing b.radius b.centre b.normal

/-- The pressure over time, as `average + amplitude cos(wt + phase)`; empty when the pressure is not
a vector. -/
def pressureEquation (b : Boundary) : String :=
  match b.pressure.bind Value.vector? with
  | some p => "p = " ++ Decimal.fixed 2 p.x ++ " + " ++ Decimal.fixed 2 p.y ++ " cos(wt + "
      ++ Decimal.fixed 0 p.z ++ "°)"
  | none => ""

end Boundary

end SimSetup
