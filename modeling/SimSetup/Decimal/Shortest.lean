import SimSetup.Decimal.Binary

/-!
# Fewest digits that read back

`Binary.shortest` picks, among the decimals that round to a given double, one with the fewest
digits, and of those the nearest. For each number of digits only the two neighbours of the value on
that decimal grid can qualify, so the search tests two candidates per grid.
-/

namespace SimSetup.Decimal

structure Digits where
  coefficient : Nat
  exponent : Int
  deriving DecidableEq, Repr

def digitCount (n : Nat) : Nat := (Nat.toDigits 10 n).length

/-- The multiples of `10 ^ k` against the reals that round to one double, in a common unit: a
multiple `c` stands at `c * step`. -/
structure Grid where
  step : Nat
  low : Nat
  value : Nat
  high : Nat
  /-- Whether the ends of the interval round to the double. -/
  closed : Bool

def Binary.grid (b : Binary) (k : Int) : Grid :=
  let scale := Nat.pow 2 (b.exponent - 2).toNat * Nat.pow 10 (-k).toNat
  { step := Nat.pow 2 (2 - b.exponent).toNat * Nat.pow 10 k.toNat
    low := (4 * b.significand - if b.lowEnd then 1 else 2) * scale
    value := 4 * b.significand * scale
    high := (4 * b.significand + 2) * scale
    closed := b.significand % 2 == 0 }

def Grid.contains (g : Grid) (c : Nat) : Bool :=
  let place := c * g.step
  if g.closed then g.low ≤ place && place ≤ g.high else g.low < place && place < g.high

/-- The neighbour of the value that rounds to the double; of two the nearer, and on a tie the
upper. -/
def Grid.pick (g : Grid) : Option Nat :=
  let lower := g.value / g.step
  let upper := lower + 1
  if g.contains lower then
    if g.contains upper && upper * g.step - g.value ≤ g.value - lower * g.step then some upper
    else some lower
  else if g.contains upper then some upper
  else none

def Binary.decimalExponent (b : Binary) : Int :=
  let num := b.numerator
  let den := b.denominator
  if den ≤ num then digitCount (num / den) else 1 - digitCount ((den - 1) / num)

def Digits.trim (d : Digits) : Digits :=
  if d.coefficient % 10 = 0 then ⟨d.coefficient / 10, d.exponent + 1⟩ else d

def Binary.shortest (b : Binary) : Digits :=
  if b.significand = 0 then ⟨0, 0⟩
  else
    let p := b.decimalExponent
    -- seventeen digits always suffice for a double
    let found := (List.range 17).findSome? fun n : Nat =>
      let k := p - (n + 1)
      (b.grid k).pick.map fun c => (Digits.mk c k).trim
    found.getD ⟨0, 0⟩

end SimSetup.Decimal
