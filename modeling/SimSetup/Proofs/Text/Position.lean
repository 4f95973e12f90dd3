import SimSetup.Text.Position

/-!
# Positions by counting

The line of a place is told by the line feeds before it, the column by the characters since the last
of them.
-/

namespace SimSetup.Text

theorem before_byteLength (seen rest : List Char) :
    before (byteLength seen) (seen ++ rest) = seen := by
  induction seen with
  | nil => cases rest <;> rfl
  | cons c seen ih =>
    obtain ⟨n, hn⟩ := Nat.exists_eq_succ_of_ne_zero (Nat.ne_of_gt c.utf8Size_pos)
    have hstart : byteLength (c :: seen) = n + byteLength seen + 1 := by
      rw [byteLength_cons, hn]
      omega
    have hnext : n + byteLength seen + 1 - c.utf8Size = byteLength seen := by omega
    rw [hstart, List.cons_append, before, hnext, ih]

theorem length_le_byteLength (cs : List Char) : cs.length ≤ byteLength cs := by
  induction cs with
  | nil => exact Nat.le_refl 0
  | cons c cs ih =>
    have hpos := c.utf8Size_pos
    rw [List.length_cons, byteLength_cons]
    omega

theorem utf8Size_eq_one_iff {c : Char} : c.utf8Size = 1 ↔ c.toNat < 128 := by
  rw [Char.utf8Size_eq_one_iff, UInt32.le_iff_toNat_le]
  exact Nat.lt_succ_iff.symm

/-- Bytes and characters are the same in number just when all characters are ASCII. -/
theorem byteLength_eq_length_iff : byteLength cs = cs.length ↔ ∀ c ∈ cs, c.toNat < 128 := by
  induction cs with
  | nil => simp
  | cons c cs ih =>
    have hpos := c.utf8Size_pos
    have hle := length_le_byteLength cs
    rw [List.forall_mem_cons, ← ih, ← utf8Size_eq_one_iff, byteLength_cons, List.length_cons]
    omega

/-- The bytes of the span are those of `run`, somewhere in the text. -/
def Covers (text : List Char) (span : Span) (run : List Char) : Prop :=
  ∃ left right, text = left ++ run ++ right ∧ span = ⟨byteLength left, byteLength (left ++ run)⟩

theorem Covers.first (h : Covers text span (c :: run)) :
    Covers text ⟨span.start, span.start + c.utf8Size⟩ [c] := by
  obtain ⟨left, right, rfl, rfl⟩ := h
  exact ⟨left, run ++ right, by simp, by simp⟩

def lineAfter (seen : List Char) : Nat := seen.count '\n' + 1

def columnAfter (seen : List Char) : Nat := (seen.reverse.takeWhile (· ≠ '\n')).length + 1

theorem columnAfter_pos (seen : List Char) : 0 < columnAfter seen := Nat.succ_pos _

theorem lineAfter_feed {line : List Char} (h : '\n' ∉ line) (rest : List Char) :
    lineAfter (line ++ '\n' :: rest) = lineAfter rest + 1 := by
  rw [lineAfter, List.count_append, List.count_eq_zero_of_not_mem h, List.count_cons_self,
    Nat.zero_add, lineAfter]

theorem columnAfter_feed (run seen : List Char) :
    columnAfter (run ++ '\n' :: seen) = columnAfter seen := by
  simp only [columnAfter, List.reverse_append, List.reverse_cons, List.append_assoc,
    List.takeWhile_append]
  split
  · next hall => simpa using hall.symm
  · rfl

theorem columnAfter_run {run : List Char} (h : '\n' ∉ run) : columnAfter run = run.length + 1 := by
  have hall : ∀ c ∈ run.reverse, decide (c ≠ '\n') = true := by
    intro c hc
    simpa using fun heq : c = '\n' => h (heq ▸ List.mem_reverse.mp hc)
  rw [columnAfter, ← List.append_nil run.reverse, List.takeWhile_append_of_pos hall]
  simp

theorem foldl_advance (seen : List Char) :
    seen.foldl Position.advance .start = ⟨lineAfter seen, columnAfter seen⟩ := by
  -- on the reversed text, since the column is told by its end
  rw [← List.reverse_reverse seen]
  induction seen.reverse with
  | nil => rfl
  | cons c cs ih =>
    rw [List.reverse_cons, List.foldl_append, ih]
    by_cases hc : c = '\n' <;> simp [Position.advance, lineAfter, columnAfter, hc]

theorem position_byteLength (seen rest : List Char) :
    position (seen ++ rest) (byteLength seen) = ⟨lineAfter seen, columnAfter seen⟩ := by
  rw [position, before_byteLength, foldl_advance]

end SimSetup.Text
