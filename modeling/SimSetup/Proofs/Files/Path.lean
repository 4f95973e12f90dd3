import SimSetup.Files.Path

/-!
# Joined paths

The steps of a joined path are those of its two parts, one after the other, unless the second part
starts at the root. A step down goes by a name without a slash, and a text without a slash is one
step.
-/

namespace SimSetup.Files

-- ---------------------------------------------------------------------------
-- The steps of a path
-- ---------------------------------------------------------------------------

theorem steps_slash (first second : List Char) :
    steps (.ofList (first ++ '/' :: second)) = steps (.ofList first) ++ steps (.ofList second) := by
  simp only [steps, String.toList_ofList, Text.segments_append, List.filterMap_append]

theorem isAbsolute_append {first : String} (h : first ≠ "") (second : String) :
    isAbsolute (first ++ second) = isAbsolute first := by
  have hne : first.toList ≠ [] := by simpa using h
  rw [isAbsolute, isAbsolute, String.toList_append, List.head?_append,
    List.head?_eq_some_head hne, Option.some_or]

theorem eq_slash_of_endsInSlash {path : String} (h : endsInSlash path = true) :
    ∃ init, path = .ofList (init ++ ['/']) := by
  rw [endsInSlash, beq_iff_eq] at h
  obtain ⟨init, hinit⟩ := List.getLast?_eq_some_iff.mp h
  exact ⟨init, by rw [← hinit, String.ofList_toList]⟩

theorem not_slash_mem_of_down {path name : String} (h : Step.down name ∈ steps path) :
    '/' ∉ name.toList := by
  rw [steps, List.mem_filterMap] at h
  obtain ⟨piece, hpiece, hstep⟩ := h
  have hslash := Text.not_mem_of_mem_segments hpiece
  unfold Step.ofSegment? at hstep
  split at hstep <;> cases hstep
  simpa using hslash

-- ---------------------------------------------------------------------------
-- Joined paths
-- ---------------------------------------------------------------------------

section
variable {first second : String} (h : isAbsolute second = false)
include h

theorem steps_join : steps (join first second) = steps first ++ steps second := by
  unfold join
  rw [h, if_neg Bool.false_ne_true]
  split
  · next hcase =>
    rcases Bool.or_eq_true _ _ |>.mp hcase with hempty | hslash
    · obtain rfl : first = "" := by simpa using hempty
      rw [String.empty_append]
      rfl
    · obtain ⟨init, rfl⟩ := eq_slash_of_endsInSlash hslash
      have happ : String.ofList (init ++ ['/']) ++ second =
          .ofList (init ++ '/' :: second.toList) := by
        simp [← String.toList_inj]
      rw [happ, steps_slash, steps_slash, String.ofList_toList]
      exact congrArg (· ++ steps second) (List.append_nil _).symm
  · have happ : first ++ "/" ++ second = .ofList (first.toList ++ '/' :: second.toList) := by
      simp [← String.toList_inj]
    rw [happ, steps_slash, String.ofList_toList, String.ofList_toList]

theorem isAbsolute_join : isAbsolute (join first second) = isAbsolute first := by
  unfold join
  rw [h, if_neg Bool.false_ne_true]
  by_cases hempty : first = ""
  · subst hempty
    rw [if_pos (by simp), String.empty_append, h]
    rfl
  · split
    · exact isAbsolute_append hempty second
    · rw [String.append_assoc]
      exact isAbsolute_append hempty _

end

-- ---------------------------------------------------------------------------
-- Names
-- ---------------------------------------------------------------------------

section
variable {name : String} (h : '/' ∉ name.toList)
include h

theorem isAbsolute_of_name : isAbsolute name = false := by
  rw [isAbsolute, beq_eq_false_iff_ne]
  exact fun hhead => h (List.mem_of_mem_head? hhead)

/-- A name of more than two characters is a step down, being neither `.` nor `..`. -/
theorem steps_of_name (hlong : 2 < name.length) : steps name = [.down name] := by
  rw [steps, Text.segments_of_not_mem h, List.filterMap_cons, List.filterMap_nil]
  have hstep : Step.ofSegment? name.toList = some (.down name) := by
    rw [← String.length_toList] at hlong
    unfold Step.ofSegment?
    split
    · next heq => simp [heq] at hlong
    · next heq => simp [heq] at hlong
    · next heq => simp [heq] at hlong
    · rw [String.ofList_toList]
  rw [hstep]

end

end SimSetup.Files
