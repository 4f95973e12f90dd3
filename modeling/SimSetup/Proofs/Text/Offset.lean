import SimSetup.Proofs.Text.Position
import SimSetup.Text.Segments

/-!
# Offsets by line and column

A position leads back to its offset: go to the line with its number and then past as many characters
as the column says. So offsets between characters have different positions, in reading order.
-/

namespace SimSetup.Text

def Cuts (text : List Char) (offset : Nat) : Prop :=
  ∃ seen rest, text = seen ++ rest ∧ offset = byteLength seen

/-- The offset of a place in a line of the text, if there is a line with that number and it has at
least the characters before that column. -/
def offset? (text : List Char) : Position → Option Nat
  | ⟨line + 1, column + 1⟩ => do
    let lines := segments '\n' text
    let here ← lines[line]?
    if column ≤ here.length then
      some (byteLength ((lines.take line).flatMap (· ++ ['\n']) ++ here.take column))
    else none
  | _ => none

/-- Reading order: by the line, then by the column. -/
def Position.Before (p q : Position) : Prop :=
  p.line < q.line ∨ p.line = q.line ∧ p.column < q.column

-- ---------------------------------------------------------------------------
-- Whole lines and the start of one
-- ---------------------------------------------------------------------------

/-- A text as its whole lines and the start of the line after them. -/
structure Lines (seen : List Char) (whole : List (List Char)) (run : List Char) : Prop where
  whole_feed : ∀ line ∈ whole, '\n' ∉ line
  run_feed : '\n' ∉ run
  eq_lines : seen = whole.flatMap (· ++ ['\n']) ++ run

theorem exists_lines (seen : List Char) : ∃ whole run, Lines seen whole run := by
  -- from the end, where the next character goes
  rw [← List.reverse_reverse seen]
  induction seen.reverse with
  | nil => exact ⟨[], [], by simp, by simp, rfl⟩
  | cons c cs ih =>
    obtain ⟨whole, run, hwhole, hrun, heq⟩ := ih
    rw [List.reverse_cons, heq]
    by_cases hc : c = '\n'
    · refine ⟨whole ++ [run], [], fun line hline => ?_, by simp, by simp [hc]⟩
      rcases List.mem_append.mp hline with hline | hline
      · exact hwhole line hline
      · rwa [List.mem_singleton.mp hline]
    · exact ⟨whole, run ++ [c], hwhole, by simp [hrun, Ne.symm hc], by simp⟩

section
variable {seen run : List Char} {whole : List (List Char)} (h : Lines seen whole run)
include h

theorem Lines.position_eq (rest : List Char) :
    position (seen ++ rest) (byteLength seen) = ⟨whole.length + 1, run.length + 1⟩ := by
  obtain ⟨hwhole, hrun, rfl⟩ := h
  rw [position_byteLength]
  induction whole with
  | nil => simp [lineAfter, columnAfter_run hrun, List.count_eq_zero_of_not_mem hrun]
  | cons line whole ih =>
    obtain ⟨hline, hwhole⟩ := List.forall_mem_cons.mp hwhole
    obtain ⟨hlines, hcolumn⟩ := Position.mk.inj (ih hwhole)
    rw [List.flatMap_cons, List.append_assoc, List.append_assoc, List.singleton_append,
      lineAfter_feed hline, columnAfter_feed, hlines, hcolumn, List.length_cons]

theorem Lines.offset?_eq (rest : List Char) :
    offset? (seen ++ rest) ⟨whole.length + 1, run.length + 1⟩ = some (byteLength seen) := by
  obtain ⟨hwhole, hrun, rfl⟩ := h
  obtain ⟨piece, pieces, hsegments⟩ := segments_run hrun rest
  simp [offset?, segments_flatMap hwhole, hsegments]

end

theorem lines_of_offset? {text : List Char} {p : Position} (h : offset? text p = some offset) :
    ∃ seen rest whole run, text = seen ++ rest ∧ offset = byteLength seen ∧ Lines seen whole run ∧
      p = ⟨whole.length + 1, run.length + 1⟩ := by
  unfold offset? at h
  split at h
  case h_2 => cases h
  case h_1 line column =>
    simp only [bind, Option.bind_eq_some_iff] at h
    obtain ⟨here, hhere, h⟩ := h
    split at h
    case isFalse => cases h
    case isTrue hcolumn =>
      obtain ⟨rest, htext⟩ := exists_of_segments hhere
      obtain ⟨hline, -⟩ := List.getElem?_eq_some_iff.mp hhere
      have hfeed : ∀ l ∈ segments '\n' text, '\n' ∉ l := fun _ => not_mem_of_mem_segments
      refine ⟨_, here.drop column ++ rest, (segments '\n' text).take line, here.take column, ?_,
        (Option.some.inj h).symm,
        ⟨fun l hl => hfeed l (List.mem_of_mem_take hl), fun hmem => ?_, rfl⟩, ?_⟩
      · rw [List.append_assoc, ← List.append_assoc (here.take column), List.take_append_drop,
          ← List.append_assoc]
        exact htext
      · exact hfeed here (List.mem_of_getElem? hhere) (List.mem_of_mem_take hmem)
      · rw [List.length_take_of_le (Nat.le_of_lt hline), List.length_take_of_le hcolumn]

theorem offset?_eq_some_iff {text : List Char} {p : Position} :
    offset? text p = some offset ↔ Cuts text offset ∧ position text offset = p := by
  constructor
  · intro h
    obtain ⟨seen, rest, whole, run, rfl, rfl, hlines, rfl⟩ := lines_of_offset? h
    exact ⟨⟨seen, rest, rfl, rfl⟩, hlines.position_eq rest⟩
  · rintro ⟨⟨seen, rest, rfl, rfl⟩, rfl⟩
    obtain ⟨whole, run, hlines⟩ := exists_lines seen
    rw [hlines.position_eq, hlines.offset?_eq]

-- ---------------------------------------------------------------------------
-- Reading order
-- ---------------------------------------------------------------------------

theorem Position.Before.trans {p q r : Position} (h : p.Before q) (h' : q.Before r) :
    p.Before r := by
  unfold Before at *
  omega

theorem Position.before_advance (p : Position) (c : Char) : p.Before (p.advance c) := by
  unfold advance
  split
  · exact .inl (Nat.lt_succ_self _)
  · exact .inr ⟨rfl, Nat.lt_succ_self _⟩

theorem Position.before_foldl_advance (p : Position) {run : List Char} (h : run ≠ []) :
    p.Before (run.foldl advance p) := by
  induction run generalizing p with
  | nil => exact absurd rfl h
  | cons c run ih =>
    rw [List.foldl_cons]
    by_cases hrun : run = []
    · rw [hrun]
      exact p.before_advance c
    · exact (p.before_advance c).trans (ih _ hrun)

theorem position_before {text : List Char} (h : Cuts text first) (h' : Cuts text second)
    (hlt : first < second) : (position text first).Before (position text second) := by
  obtain ⟨seen, rest, rfl, rfl⟩ := h
  obtain ⟨seen', rest', htext, rfl⟩ := h'
  rcases List.append_eq_append_iff.mp htext with ⟨between, rfl, -⟩ | ⟨between, rfl, -⟩
  · have hne : between ≠ [] := by
      rintro rfl
      simp at hlt
    rw [position, position, before_byteLength, htext, before_byteLength, List.foldl_append]
    exact Position.before_foldl_advance _ hne
  · rw [byteLength_append] at hlt
    omega

theorem before_of_le {text : List Char} (h : byteLength text ≤ offset) :
    before offset text = text := by
  induction text generalizing offset with
  | nil => cases offset <;> rfl
  | cons c text ih =>
    have hpos := c.utf8Size_pos
    rw [byteLength_cons] at h
    cases offset with
    | zero => omega
    | succ offset => rw [before, ih (by omega)]

theorem position_of_le {text : List Char} (h : byteLength text ≤ offset) :
    position text offset = position text (byteLength text) := by
  rw [position, position, before_of_le h, before_of_le (Nat.le_refl _)]

/-- A position and its offset determine one another, in one order; past the end there is only the
position of the end. -/
theorem position_identifies (text : List Char) :
    (∀ p offset, offset? text p = some offset ↔ Cuts text offset ∧ position text offset = p) ∧
      (∀ first second, Cuts text first → Cuts text second → first < second →
        (position text first).Before (position text second)) ∧
      ∀ offset, byteLength text < offset → position text offset = position text (byteLength text) :=
  ⟨fun _ _ => offset?_eq_some_iff, fun _ _ => position_before,
    fun _ h => position_of_le (Nat.le_of_lt h)⟩

theorem position_identifies_accented :
    Cuts ['é', '\n', '$'] 2 ∧ Cuts ['é', '\n', '$'] 3 ∧
      offset? ['é', '\n', '$'] ⟨1, 2⟩ = some 2 ∧ offset? ['é', '\n', '$'] ⟨2, 1⟩ = some 3 ∧
      (position ['é', '\n', '$'] 2).Before (position ['é', '\n', '$'] 3) ∧
      position ['é', '\n', '$'] 9 = position ['é', '\n', '$'] (byteLength ['é', '\n', '$']) := by
  have hbefore : Cuts ['é', '\n', '$'] 2 := ⟨['é'], ['\n', '$'], rfl, rfl⟩
  have hbehind : Cuts ['é', '\n', '$'] 3 := ⟨['é', '\n'], ['$'], rfl, rfl⟩
  obtain ⟨hoffset, horder, hpast⟩ := position_identifies ['é', '\n', '$']
  exact ⟨hbefore, hbehind, (hoffset ⟨1, 2⟩ 2).mpr ⟨hbefore, rfl⟩,
    (hoffset ⟨2, 1⟩ 3).mpr ⟨hbehind, rfl⟩, horder 2 3 hbefore hbehind (by decide),
    hpast 9 (by decide)⟩

end SimSetup.Text
