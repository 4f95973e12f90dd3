import Mathlib.Tactic.SplitIfs

/-!
# The order of texts is that of their bytes

Texts are ordered by their characters, one after another. UTF-8 is made so that comparing the bytes
one after another comes to the same: of two characters the lesser has the lesser bytes, whatever
follows them.
-/

namespace SimSetup.Text

def bytes (s : String) : List UInt8 := s.toUTF8.data.toList

theorem bytes_eq (s : String) : bytes s = s.toList.flatMap String.utf8EncodeChar := by
  have h : s.toUTF8 = s.toList.utf8Encode := String.utf8Encode_toList.symm
  rw [bytes, h]
  simp [List.utf8Encode]

-- ---------------------------------------------------------------------------
-- One character
-- ---------------------------------------------------------------------------

section
variable {x y : Nat} (hx : x < 256) (hy : y < 256)
include hx hy

theorem ofNat_lt_iff : UInt8.ofNat x < UInt8.ofNat y ↔ x < y := by
  rw [UInt8.lt_iff_toNat_lt, UInt8.toNat_ofNat_of_lt' hx, UInt8.toNat_ofNat_of_lt' hy]

theorem ofNat_inj : UInt8.ofNat x = UInt8.ofNat y ↔ x = y := by
  rw [← UInt8.toNat_inj, UInt8.toNat_ofNat_of_lt' hx, UInt8.toNat_ofNat_of_lt' hy]

end

theorem codePoint_lt (c : Char) : c.val.toNat < 0x110000 := by
  rcases c.valid with h | ⟨-, h⟩
  · exact Nat.lt_trans h (by decide)
  · exact h

/-- The first byte tells the number of bytes, more of them for greater characters; the bytes of one
number are the digits of the character in base 64. -/
theorem utf8EncodeChar_lt (h : c < d) (l m : List UInt8) :
    String.utf8EncodeChar c ++ l < String.utf8EncodeChar d ++ m := by
  have h : c.val.toNat < d.val.toNat := UInt32.lt_iff_toNat_lt.mp h
  have hc := codePoint_lt c
  have hd := codePoint_lt d
  have hdigits (v : Nat) : v / 4096 = v / 64 / 64 ∧ v / 262144 = v / 64 / 64 / 64 := by omega
  simp only [String.utf8EncodeChar, hdigits]
  split_ifs
  all_goals
    simp (disch := omega) only [List.cons_append, List.nil_append, List.cons_lt_cons_iff,
      ofNat_lt_iff, ofNat_inj]
    omega

-- ---------------------------------------------------------------------------
-- Whole texts
-- ---------------------------------------------------------------------------

theorem flatMap_utf8EncodeChar_lt {cs ds : List Char} (h : cs < ds) :
    cs.flatMap String.utf8EncodeChar < ds.flatMap String.utf8EncodeChar := by
  induction h with
  | @nil d ds =>
    obtain ⟨b, bs, hd⟩ := List.exists_cons_of_ne_nil (String.utf8EncodeChar_ne_nil (c := d))
    rw [List.flatMap_cons, hd]
    exact List.nil_lt_cons _ _
  | rel h => exact utf8EncodeChar_lt h _ _
  | cons _ ih => exact List.append_left_lt ih

theorem bytes_lt (h : s < t) : bytes s < bytes t := by
  rw [bytes_eq, bytes_eq]
  exact flatMap_utf8EncodeChar_lt (String.lt_iff.mp h)

theorem bytes_le_iff {s t : String} : bytes s ≤ bytes t ↔ s ≤ t := by
  constructor
  · exact fun h hlt => h (bytes_lt hlt)
  · intro h
    rcases Std.le_iff_lt_or_eq.mp h with hlt | rfl
    · exact Std.le_of_lt (bytes_lt hlt)
    · exact Std.le_refl _

end SimSetup.Text
