import SimSetup.Decimal.Shortest

/-!
# Decimal texts of doubles

`PlainStyle.write` gives the shortest digits in positional notation, never an exponent. `fixed`
gives a set number of decimal places of the exact binary value, a half going to the even neighbour.
-/

namespace SimSetup.Decimal

private def zeros (n : Nat) : List Char := List.replicate n '0'

def withPoint (n places : Nat) : List Char :=
  let ds := Nat.toDigits 10 n
  let ds := zeros (places + 1 - ds.length) ++ ds
  if places = 0 then ds else ds.take (ds.length - places) ++ '.' :: ds.drop (ds.length - places)

theorem mem_withPoint (h : c ∈ withPoint n places) : c.isDigit = true ∨ c = '.' := by
  have hdigits {d : Char} (hd : d ∈ zeros (places + 1 - (Nat.toDigits 10 n).length) ++
      Nat.toDigits 10 n) : d.isDigit = true := by
    rcases List.mem_append.mp hd with hzero | hdigit
    · rw [List.eq_of_mem_replicate hzero]
      rfl
    · exact Nat.isDigit_of_mem_toDigits (by decide) (by decide) hdigit
  rw [withPoint] at h
  split at h
  · exact .inl (hdigits h)
  · rcases List.mem_append.mp h with hwhole | hrest
    · exact .inl (hdigits (List.mem_of_mem_take hwhole))
    · rcases List.mem_cons.mp hrest with hpoint | hplaces
      · exact .inr hpoint
      · exact .inl (hdigits (List.mem_of_mem_drop hplaces))

def Digits.plain (d : Digits) : List Char :=
  withPoint (d.coefficient * Nat.pow 10 d.exponent.toNat) (-d.exponent).toNat

def Digits.isWhole (d : Digits) : Bool := 0 ≤ d.exponent

private def signed (negative : Bool) (cs : List Char) : List Char :=
  if negative then '-' :: cs else cs

theorem mem_signed (h : c ∈ signed negative cs) : c = '-' ∨ c ∈ cs := by
  cases negative with
  | true => exact List.mem_cons.mp h
  | false => exact .inr h

structure PlainStyle where
  /-- Written after a whole number. -/
  wholeSuffix : List Char
  nan : List Char

def PlainStyle.write (style : PlainStyle) (x : Float) : String :=
  .ofList <| match Decoded.ofFloat x with
  | .nan => style.nan
  | .infinite negative => signed negative ['i', 'n', 'f']
  | .finite negative b =>
    let d := b.shortest
    signed negative (d.plain ++ if d.isWhole then style.wholeSuffix else [])

/-- Numbers as they are shown to a reader: `2`, `0.1`, `-0`, `NaN`, `inf`. -/
def shown : PlainStyle := ⟨[], ['N', 'a', 'N']⟩

/-- Nearest integer to `num / den`; a half goes to the even one. -/
def roundDiv (num den : Nat) : Nat :=
  let q := num / den
  let twice := 2 * (num % den)
  if twice < den || (twice == den && q % 2 == 0) then q else q + 1

/-- `places` digits after the point; the sign of a negative number stays when it rounds to zero. -/
def fixed (places : Nat) (x : Float) : String :=
  .ofList <| match Decoded.ofFloat x with
  | .nan => ['n', 'a', 'n']
  | .infinite negative => signed negative ['i', 'n', 'f']
  | .finite negative b =>
    signed negative (withPoint (roundDiv (b.numerator * Nat.pow 10 places) b.denominator) places)

end SimSetup.Decimal
