import SimSetup.Boundary.Value

/-!
# Kinds of boundary and their attributes

A plain boundary has geometry only; the other kinds carry a pressure as well. Inlets and outlets
differ from each other, and from a boundary with a pressure and no role, by their role alone.
-/

namespace SimSetup.Boundary

inductive Kind
  | plain
  | sinusoidalPressure
  | inlet
  | outlet
  deriving DecidableEq, Repr

inductive Role
  | inlet
  | outlet
  deriving DecidableEq, Repr

/-- Positive into the domain. -/
def Role.flowSign : Role → Float
  | inlet => 1.0
  | outlet => -1.0

inductive Attribute
  | name
  | centre
  | normal
  | radius
  | pressure
  deriving DecidableEq, Repr

namespace Attribute

def label : Attribute → String
  | name => "Name"
  | centre => "Centre"
  | normal => "Normal"
  | radius => "Radius"
  | pressure => "Pressure"

def all : List Attribute := [name, centre, normal, radius, pressure]

def ofLabel? (s : String) : Option Attribute := all.find? (·.label = s)

theorem ofLabel?_label (a : Attribute) : ofLabel? a.label = some a := by
  cases a <;> decide

def default : Attribute → Value
  | name => .none
  | centre => .vector .zero
  | normal => .vector .unitZ
  | radius => .number 0.5
  | pressure => .vector ⟨80.0, 0.0, 0.0⟩

end Attribute

namespace Kind

def title : Kind → String
  | plain => "Iolet"
  | sinusoidalPressure => "SinusoidalPressureIolet"
  | inlet => "Inlet"
  | outlet => "Outlet"

def hasPressure : Kind → Bool
  | plain => false
  | _ => true

def role? : Kind → Option Role
  | inlet => some .inlet
  | outlet => some .outlet
  | _ => none

/-- In the order in which they are assigned and reported. -/
def attributes (k : Kind) : List Attribute :=
  [.name, .centre, .normal, .radius] ++ if k.hasPressure then [.pressure] else []

def recognizes (k : Kind) (name : String) : Bool :=
  k.attributes.any (·.label = name)

end Kind

end SimSetup.Boundary
