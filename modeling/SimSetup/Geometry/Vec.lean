import SimSetup.Geometry.Scalar
import SimSetup.Decimal.Text

/-!
# Points and directions in space

Products and sums are taken in the order written, left to right, since doubles do not reassociate.
-/

namespace SimSetup

inductive Axis
  | x
  | y
  | z
  deriving DecidableEq, Repr

namespace Axis

def label : Axis → String
  | x => "x"
  | y => "y"
  | z => "z"

def all : List Axis := [x, y, z]

def ofLabel? (s : String) : Option Axis := all.find? (·.label = s)

end Axis

structure Vec (α : Type) where
  x : α
  y : α
  z : α
  deriving DecidableEq, BEq, Repr

namespace Vec

variable {α : Type}

def get (v : Vec α) : Axis → α
  | .x => v.x
  | .y => v.y
  | .z => v.z

def set (v : Vec α) (axis : Axis) (a : α) : Vec α :=
  match axis with
  | .x => { v with x := a }
  | .y => { v with y := a }
  | .z => { v with z := a }

@[simp] theorem get_set (v : Vec α) (axis : Axis) (a : α) : (v.set axis a).get axis = a := by
  cases axis <;> rfl

theorem get_set_of_ne (v : Vec α) {i j : Axis} (h : i ≠ j) (a : α) :
    (v.set i a).get j = v.get j := by
  cases i <;> cases j <;> first | rfl | contradiction

variable [Scalar α]

def zero : Vec α := ⟨Scalar.zero, Scalar.zero, Scalar.zero⟩

def unitZ : Vec α := ⟨Scalar.zero, Scalar.zero, Scalar.one⟩

instance : Add (Vec α) := ⟨fun a b => ⟨a.x + b.x, a.y + b.y, a.z + b.z⟩⟩
instance : Sub (Vec α) := ⟨fun a b => ⟨a.x - b.x, a.y - b.y, a.z - b.z⟩⟩
instance : Neg (Vec α) := ⟨fun a => ⟨-a.x, -a.y, -a.z⟩⟩

def scale (a : Vec α) (s : α) : Vec α := ⟨a.x * s, a.y * s, a.z * s⟩

def dot (a b : Vec α) : α := a.x * b.x + a.y * b.y + a.z * b.z

def cross (a b : Vec α) : Vec α :=
  ⟨a.y * b.z - a.z * b.y, a.z * b.x - a.x * b.z, a.x * b.y - a.y * b.x⟩

def length (a : Vec α) : α := Scalar.sqrt (a.dot a)

/-- The unit vector along `a`, unless its length is computed as zero or is not finite. -/
def normalized? (a : Vec α) : Option (Vec α) :=
  if Scalar.isZero a.length || !Scalar.isFinite a.length then none
  else some (a.scale (Scalar.one / a.length))

def midpoint (a b : Vec α) : Vec α := (a + b).scale Scalar.half

/-- Reads `(x, y, z)`. -/
def text (a : Vec Float) : String :=
  let shown := Decimal.shown.write
  "(" ++ shown a.x ++ ", " ++ shown a.y ++ ", " ++ shown a.z ++ ")"

end Vec

end SimSetup
