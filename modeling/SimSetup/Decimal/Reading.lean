import SimSetup.Decimal.Shortest

/-!
# The double nearest to a decimal

Magnitudes beyond the range of doubles are settled from the number of digits alone, so that a huge
exponent costs nothing.
-/

namespace SimSetup.Decimal

/-- Ties go to the even significand; from `2 ^ 1024` less half a unit on the result is infinite. -/
def Digits.nearest (d : Digits) : Float :=
  let top := digitCount d.coefficient + d.exponent
  if d.coefficient = 0 || top < -400 then 0.0
  else if 400 < top then 1.0 / 0.0
  else if 0 ≤ d.exponent then Float.ofScientific d.coefficient false d.exponent.toNat
  else Float.ofScientific d.coefficient true (-d.exponent).toNat

def nearest (negative : Bool) (d : Digits) : Float :=
  if negative then -d.nearest else d.nearest

end SimSetup.Decimal
