import SimSetup.Geometry.Vec
import SimSetup.Text.Quoted

/-!
# Attribute values

What an attribute of a boundary may be given: nothing, a number, a text, a vector, or a list of such
values. Three numbers in a list mean the same as a vector; `canonical` settles on the vector, at
every depth.
-/

namespace SimSetup.Boundary

inductive Value
  | none
  | number (x : Float)
  | text (s : String)
  | vector (v : Vec Float)
  | list (items : List Value)

namespace Value

def isNone : Value → Bool
  | none => true
  | _ => false

def number? : Value → Option Float
  | number x => some x
  | _ => .none

def text? : Value → Option String
  | text s => some s
  | _ => .none

def triple? : List Value → Option (Vec Float)
  | [number x, number y, number z] => some ⟨x, y, z⟩
  | _ => .none

def vector? : Value → Option (Vec Float)
  | vector v => some v
  | list items => triple? items
  | _ => .none

def ofItems (items : List Value) : Value :=
  match triple? items with
  | some v => vector v
  | .none => list items

mutual

/-- The value with every list of exactly three numbers replaced by a vector, innermost lists
first. -/
def canonical : Value → Value
  | list items => ofItems (canonicalItems items)
  | v => v

def canonicalItems : List Value → List Value
  | [] => []
  | v :: vs => v.canonical :: canonicalItems vs

end

mutual

/-- Whether some list in the value, at any depth, has an item that is nothing. -/
def hasGap : Value → Bool
  | list items => anyGap items
  | _ => false

def anyGap : List Value → Bool
  | [] => false
  | v :: vs => v.isNone || v.hasGap || anyGap vs

end

mutual

/-- Equality of values in which numbers compare as IEEE doubles: a NaN differs from itself and the
two zeros agree. -/
def same : Value → Value → Bool
  | none, none => true
  | number x, number y => x == y
  | text s, text t => s == t
  | vector v, vector w => v == w
  | list vs, list ws => sameItems vs ws
  | _, _ => false

def sameItems : List Value → List Value → Bool
  | [], [] => true
  | v :: vs, w :: ws => v.same w && sameItems vs ws
  | _, _ => false

end

instance : BEq Value := ⟨same⟩

mutual

def toText : Value → String
  | none => "none"
  | number x => Decimal.shown.write x
  | text s => Text.quoted s
  | vector v => v.text
  | list items => "[" ++ String.intercalate ", " (itemTexts items) ++ "]"

def itemTexts : List Value → List String
  | [] => []
  | v :: vs => v.toText :: itemTexts vs

end

theorem canonicalItems_eq_map (items : List Value) :
    canonicalItems items = items.map canonical := by
  induction items with
  | nil => rfl
  | cons v vs ih => rw [canonicalItems, ih, List.map_cons]

theorem anyGap_eq_any (items : List Value) :
    anyGap items = items.any fun v => v.isNone || v.hasGap := by
  induction items with
  | nil => rfl
  | cons v vs ih => rw [anyGap, ih, List.any_cons]

end Value

end SimSetup.Boundary
