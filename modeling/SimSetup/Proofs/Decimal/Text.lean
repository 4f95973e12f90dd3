import SimSetup.Decimal.Text

/-!
# Characters of decimal texts

A decimal text holds digits, a point, a sign and the letters of the texts for infinities and NaN,
whatever the double. It is part of a line.
-/

namespace SimSetup.Decimal

/-- The characters that decimal texts are made of. -/
def isNumeral (c : Char) : Bool := c.isDigit || c ∈ ['.', '-', 'i', 'n', 'f', 'N', 'a']

theorem isNumeral_of_mem_withPoint (h : c ∈ withPoint n places) : isNumeral c = true := by
  rcases mem_withPoint h with hdigit | rfl
  · simp [isNumeral, hdigit]
  · rfl

theorem isNumeral_of_mem_letters {letters : List Char} (hletters : letters.all isNumeral = true)
    (h : c ∈ letters) : isNumeral c = true := List.all_eq_true.mp hletters c h

theorem isNumeral_of_sign_or {cs : List Char} (hcs : c ∈ cs → isNumeral c = true)
    (h : c = '-' ∨ c ∈ cs) : isNumeral c = true := by
  rcases h with rfl | h
  · rfl
  · exact hcs h

theorem isNumeral_of_mem_shown (h : c ∈ (shown.write x).toList) : isNumeral c = true := by
  rw [PlainStyle.write, String.toList_ofList] at h
  split at h
  · exact isNumeral_of_mem_letters (by decide) h
  · exact isNumeral_of_sign_or (isNumeral_of_mem_letters (by decide)) (mem_signed h)
  · have hsuffix (d : Digits) : (if d.isWhole then shown.wholeSuffix else []) = [] := ite_self []
    have hsigned := mem_signed h
    rw [hsuffix, List.append_nil] at hsigned
    exact isNumeral_of_sign_or isNumeral_of_mem_withPoint hsigned

theorem isNumeral_of_mem_fixed (h : c ∈ (fixed places x).toList) : isNumeral c = true := by
  rw [fixed, String.toList_ofList] at h
  split at h
  · exact isNumeral_of_mem_letters (by decide) h
  · exact isNumeral_of_sign_or (isNumeral_of_mem_letters (by decide)) (mem_signed h)
  · exact isNumeral_of_sign_or isNumeral_of_mem_withPoint (mem_signed h)

end SimSetup.Decimal
