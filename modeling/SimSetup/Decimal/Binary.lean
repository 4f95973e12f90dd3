/-!
# Doubles as integers times powers of two

A finite double is a signed integer times a power of two. Every decimal text of this library is
computed from that integer and exponent in exact arithmetic.
-/

namespace SimSetup.Decimal

structure Binary where
  significand : Nat
  exponent : Int
  deriving DecidableEq, Repr

/-- What a double stands for. There is one NaN: its sign and payload carry no meaning here. -/
inductive Decoded
  | nan
  | infinite (negative : Bool)
  | finite (negative : Bool) (magnitude : Binary)
  deriving DecidableEq, Repr

def Decoded.ofBits (bits : Nat) : Decoded :=
  let negative := bits / Nat.pow 2 63 == 1
  let biased : Nat := bits / Nat.pow 2 52 % Nat.pow 2 11
  let fraction := bits % Nat.pow 2 52
  if biased = 2047 then if fraction = 0 then .infinite negative else .nan
  else if biased = 0 then .finite negative ⟨fraction, -1074⟩
  else .finite negative ⟨Nat.pow 2 52 + fraction, (biased : Int) - 1075⟩

def Decoded.ofFloat (x : Float) : Decoded :=
  .ofBits x.toBits.toNat

def Binary.numerator (b : Binary) : Nat := b.significand * Nat.pow 2 b.exponent.toNat

def Binary.denominator (b : Binary) : Nat := Nat.pow 2 (-b.exponent).toNat

/-- Neighbouring doubles are equally far apart except at the low end of a binade, where the one
below is half as far. -/
def Binary.lowEnd (b : Binary) : Bool :=
  b.significand == Nat.pow 2 52 && b.exponent > -1074

end SimSetup.Decimal
