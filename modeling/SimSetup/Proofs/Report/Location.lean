import Std.Data.String.ToNat
import SimSetup.Proofs.Text.Position
import SimSetup.Report.Excerpt
import SimSetup.Text.Segments

/-!
# The place that a report names

The second row of a report names the line and the column of the character with the mark's first
number. In a text that has no line breaks but line feeds these are the line and the column by
counting, provided that the number is the number of characters before the place.
-/

namespace SimSetup.Report

open Text

-- ---------------------------------------------------------------------------
-- Lines
-- ---------------------------------------------------------------------------

theorem firstLine_feed (rest : List Char) : firstLine ('\n' :: rest) = (['\n'], rest) := by
  simp [firstLine, isBreak]

theorem firstLine_run {run : List Char} (h : ∀ c ∈ run, isBreak c = false) (rest : List Char) :
    firstLine (run ++ rest) = (run ++ (firstLine rest).1, (firstLine rest).2) := by
  induction run with
  | nil => rfl
  | cons c run ih =>
    obtain ⟨hc, hrun⟩ := List.forall_mem_cons.mp h
    have hreturn : c ≠ '\r' := by
      rintro rfl
      cases hc
    rw [List.cons_append, firstLine.eq_3 _ _ fun _ heq _ => hreturn heq, if_neg (by simp [hc]),
      ih hrun]
    rfl

theorem linesFrom_of_ne_nil (start : Nat) {text : List Char} (h : text ≠ []) :
    linesFrom start text = ⟨start, (firstLine text).1⟩ ::
      linesFrom (start + (firstLine text).1.length) (firstLine text).2 := by
  cases text with
  | nil => exact absurd rfl h
  | cons c cs => rw [linesFrom]

theorem lines_of_ne_nil {text : List Char} (h : text ≠ []) : lines text = linesFrom 0 text := by
  cases text with
  | nil => exact absurd rfl h
  | cons c cs => rfl

section
variable {run rest : List Char}

theorem linesFrom_feed (start : Nat) (hrun : ∀ c ∈ run, isBreak c = false) (rest : List Char) :
    linesFrom start (run ++ '\n' :: rest) =
      ⟨start, run ++ ['\n']⟩ :: linesFrom (start + (run.length + 1)) rest := by
  rw [linesFrom_of_ne_nil start (by simp), firstLine_run hrun, firstLine_feed]
  simp

theorem linesFrom_run (start : Nat) (hrun : ∀ c ∈ run, isBreak c = false) (hrest : rest ≠ []) :
    ∃ l more, linesFrom start (run ++ rest) = l :: more ∧ l.start = start ∧
      start + run.length < l.stop := by
  rw [linesFrom_of_ne_nil start (by simp [hrest]), firstLine_run hrun]
  refine ⟨_, _, rfl, rfl, ?_⟩
  have hpos := List.length_pos_iff.mpr (firstLine_ne_nil hrest)
  simp only [Line.stop, List.length_append]
  omega

theorem unbroken (hfeeds : ∀ c ∈ run, isBreak c = true → c = '\n') (hrun : '\n' ∉ run) :
    ∀ c ∈ run, isBreak c = false := fun c hc =>
  Bool.eq_false_iff.mpr fun hbreak => hrun (hfeeds c hc hbreak ▸ hc)

end

/-- The line of the first character of `rest`: it is found by its number, comes after as many lines
as there are line feeds before it, and starts behind the last of them. -/
theorem exists_line (start : Nat) (passed : List Char) {rest : List Char}
    (hfeeds : ∀ c ∈ passed, isBreak c = true → c = '\n') (hrest : rest ≠ []) : ∃ l,
      (linesFrom start (passed ++ rest)).findIdx? (start + passed.length < ·.stop) =
        some (passed.count '\n') ∧
      (linesFrom start (passed ++ rest))[passed.count '\n']? = some l ∧
      l.start + columnAfter passed = start + passed.length + 1 := by
  -- line by line: behind the first line feed the same question is asked with a later start
  by_cases hfeed : '\n' ∈ passed
  · obtain ⟨run, more, rfl, hrun⟩ := List.eq_append_cons_of_mem hfeed
    obtain ⟨hfeeds, hmore⟩ := List.forall_mem_append.mp hfeeds
    obtain ⟨l, hfind, hl, hcolumn⟩ := exists_line (start + (run.length + 1)) more
      (List.forall_mem_cons.mp hmore).2 hrest
    have hcount : (run ++ '\n' :: more).count '\n' = more.count '\n' + 1 := by
      simp [List.count_eq_zero.mpr hrun]
    have hlength : start + (run ++ '\n' :: more).length = start + (run.length + 1) + more.length := by
      simp only [List.length_append, List.length_cons]
      omega
    have hpast : ¬ start + (run.length + 1) + more.length < Line.stop ⟨start, run ++ ['\n']⟩ := by
      simp [Line.stop]
    rw [List.append_assoc, List.cons_append, linesFrom_feed start (unbroken hfeeds hrun), hlength,
      hcount, columnAfter_feed]
    refine ⟨l, ?_, hl, hcolumn⟩
    rw [List.findIdx?_cons, if_neg (by simpa using hpast), hfind]
    rfl
  · obtain ⟨l, more, hlines, hstart, hlt⟩ := linesFrom_run start (unbroken hfeeds hfeed) hrest
    rw [hlines, List.count_eq_zero.mpr hfeed, columnAfter_run hfeed]
    refine ⟨l, ?_, rfl, by omega⟩
    rw [List.findIdx?_cons, if_pos (by simpa using hlt)]
termination_by passed.length

-- ---------------------------------------------------------------------------
-- Places
-- ---------------------------------------------------------------------------

def place? (text : List Char) (offset : Nat) : Option Position :=
  (lineOf? text offset).map fun index =>
    ⟨index + 1, offset - (lines text)[index]?.elim 0 Line.start + 1⟩

theorem lineOf?_eq_none : lineOf? text offset = none ↔ text.length < offset := by
  simp [lineOf?]

section
variable {passed rest : List Char}

theorem place?_append (hfeeds : ∀ c ∈ passed, isBreak c = true → c = '\n') (hrest : rest ≠ []) :
    place? (passed ++ rest) passed.length = some ⟨lineAfter passed, columnAfter passed⟩ := by
  obtain ⟨l, hfind, hl, hcolumn⟩ := exists_line 0 passed hfeeds hrest
  rw [Nat.zero_add] at hfind hcolumn
  rw [place?, lineOf?, if_pos (by simp), lines_of_ne_nil (by simp [hrest]), hfind]
  simp only [Option.getD_some, Option.map_some, hl, Option.elim_some, lineAfter]
  have hpos := columnAfter_pos passed
  congr 2
  omega

/-- No later number stands for the same place. -/
theorem place?_eq_iff (hfeeds : ∀ c ∈ passed, isBreak c = true → c = '\n') (hrest : rest ≠ [])
    (hle : passed.length ≤ offset) :
    place? (passed ++ rest) offset = some ⟨lineAfter passed, columnAfter passed⟩ ↔
      offset = passed.length := by
  refine ⟨fun h => ?_, ?_⟩
  · obtain ⟨l, -, hl, hcolumn⟩ := exists_line 0 passed hfeeds hrest
    obtain ⟨index, -, hplace⟩ := Option.map_eq_some_iff.mp h
    injection hplace with hindex hoffset
    obtain rfl : index = passed.count '\n' := Nat.succ.inj hindex
    rw [lines_of_ne_nil (by simp [hrest]), hl, Option.elim_some] at hoffset
    omega
  · rintro rfl
    exact place?_append hfeeds hrest

end

-- ---------------------------------------------------------------------------
-- The row that names a place
-- ---------------------------------------------------------------------------

def placeRow (indent : Nat) (file : String) (p : Position) : String :=
  spaces indent ++ paint .margin "╭" ++ paint .margin "─" ++ paint .margin "["
    ++ (file ++ ":" ++ toString p.line ++ ":" ++ toString p.column) ++ paint .margin "]"

/-- The second row of the report names the place in the file. -/
def Names (report file : String) (p : Position) : Prop :=
  ∃ heading indent rest, '\n' ∉ heading.toList ∧
    report = heading ++ "\n" ++ (placeRow indent file p ++ "\n" ++ rest)

/-- An excerpt names the place of its mark, and there is none when the mark leaves the text. -/
theorem excerpt_cases (file : String) (text : List Char) (m : Mark) :
    (∃ p indent rows, place? text m.start = some p ∧ m.last ≤ text.length ∧
      excerpt file text m = placeRow indent file p :: rows) ∨
    (∀ p, ¬ (place? text m.start = some p ∧ m.last ≤ text.length)) ∧ excerpt file text m = [] := by
  cases hfirst : lineOf? text m.start with
  | none => exact .inr ⟨by simp [place?, hfirst], by rw [excerpt, hfirst]⟩
  | some first =>
    cases hend : lineOf? text m.last with
    | none =>
      have hlt := lineOf?_eq_none.mp hend
      exact .inr ⟨fun p h => Nat.not_le_of_lt hlt h.2, by rw [excerpt, hfirst, hend]⟩
    | some last =>
      have hle : m.last ≤ text.length :=
        Nat.le_of_not_lt fun hlt => nomatch hend.symm.trans (lineOf?_eq_none.mpr hlt)
      rw [excerpt, hfirst, hend]
      exact .inl ⟨_, _, _, congrArg (Option.map _) hfirst, hle, rfl⟩

-- ---------------------------------------------------------------------------
-- A row names one place
-- ---------------------------------------------------------------------------

theorem isDigit_of_mem_toString {n : Nat} (h : c ∈ (toString n).toList) : c.isDigit = true := by
  rw [Nat.toString_eq_repr, Nat.toList_repr] at h
  exact Nat.isDigit_of_mem_toDigits (by decide) (by decide) h

theorem not_mem_toString (h : c.isDigit = false) (n : Nat) : c ∉ (toString n).toList :=
  fun hmem => Bool.eq_false_iff.mp h (isDigit_of_mem_toString hmem)

theorem not_mem_append {s t : String} (hs : c ∉ s.toList) (ht : c ∉ t.toList) :
    c ∉ (s ++ t).toList := by
  rw [String.toList_append, List.mem_append]
  exact not_or_intro hs ht

theorem toString_toList_inj {m n : Nat} (h : (toString m).toList = (toString n).toList) : m = n :=
  Nat.repr_inj.mp (String.toList_inj.mp h)

theorem toList_placeRow : ∃ corner ending, ∀ indent file p, (placeRow indent file p).toList =
    List.replicate indent ' ' ++ '\x1b' :: (corner ++ (file.toList ++ ':' ::
      ((toString p.line).toList ++ ':' :: ((toString p.column).toList ++ '\x1b' :: ending)))) := by
  refine ⟨"[38;5;246m╭\x1b[0m\x1b[38;5;246m─\x1b[0m\x1b[38;5;246m[\x1b[0m".toList,
    "[38;5;246m]\x1b[0m".toList, fun indent file p => ?_⟩
  simp [placeRow, spaces, paint, Ink.code]

theorem placeRow_inj {rest rest' : List Char}
    (h : (placeRow indent file p).toList ++ rest = (placeRow indent' file p').toList ++ rest') :
    p = p' := by
  obtain ⟨corner, ending, hrow⟩ := toList_placeRow
  rw [hrow, hrow] at h
  simp only [List.append_assoc, List.cons_append] at h
  obtain ⟨-, h⟩ := append_cons_inj (by simp) (by simp) h
  replace h := (List.cons.inj (List.append_cancel_left (List.append_cancel_left h))).2
  obtain ⟨hline, h⟩ := append_cons_inj (not_mem_toString rfl _) (not_mem_toString rfl _) h
  obtain ⟨hcolumn, -⟩ := append_cons_inj (not_mem_toString rfl _) (not_mem_toString rfl _) h
  have hline := toString_toList_inj hline
  have hcolumn := toString_toList_inj hcolumn
  cases p
  cases p'
  simp_all

theorem placeRow_ne_nil (indent : Nat) (file : String) (p : Position) :
    (placeRow indent file p).toList ≠ [] := by
  obtain ⟨corner, ending, hrow⟩ := toList_placeRow
  simp [hrow]

theorem names_cons_iff {heading : String} (h : '\n' ∉ heading.toList) (rows : List String) :
    Names (String.join ((heading :: rows).map (· ++ "\n"))) file p ↔ ∃ indent rest,
      (String.join (rows.map (· ++ "\n"))).toList = (placeRow indent file p).toList ++ '\n' :: rest := by
  rw [List.map_cons, String.join_cons]
  constructor
  · rintro ⟨heading', indent, rest, h', hreport⟩
    rw [← String.toList_inj] at hreport
    simp only [String.toList_append, List.append_assoc] at hreport
    exact ⟨indent, rest.toList, (append_cons_inj h h' hreport).2⟩
  · rintro ⟨indent, rest, hrows⟩
    refine ⟨heading, indent, .ofList rest, h, String.toList_inj.mp ?_⟩
    simp [hrows]

theorem names_report_iff {heading : String} (h : '\n' ∉ heading.toList) (m : Mark) :
    Names (String.join ((heading :: excerpt file text m).map (· ++ "\n"))) file p ↔
      place? text m.start = some p ∧ m.last ≤ text.length := by
  rw [names_cons_iff h]
  rcases excerpt_cases file text m with ⟨q, indent, rows, hplace, hlast, hrows⟩ | ⟨hnone, hrows⟩
  · rw [hrows, hplace, List.map_cons, String.join_cons]
    simp only [String.toList_append, List.append_assoc]
    constructor
    · rintro ⟨indent', rest, heq⟩
      exact ⟨congrArg some (placeRow_inj heq), hlast⟩
    · rintro ⟨⟨⟩, -⟩
      exact ⟨indent, _, rfl⟩
  · refine iff_of_false ?_ (hnone p)
    rintro ⟨indent, rest, heq⟩
    rw [hrows] at heq
    exact placeRow_ne_nil indent file p (List.append_eq_nil_iff.mp heq.symm).1

/-- Byte offsets serve as numbers of characters where the text before them is ASCII, and nowhere
else. -/
theorem place?_covered_iff (hfeeds : ∀ c ∈ text, isBreak c = true → c = '\n')
    (h : Covers text span run) (hne : run ≠ []) (hrun : ∀ c ∈ run, c.toNat < 128) :
    (place? text span.start = some (Text.position text span.start) ∧
      span.stop - 1 ≤ text.length) ↔ ∀ c ∈ before span.start text, c.toNat < 128 := by
  obtain ⟨left, right, rfl, rfl⟩ := h
  rw [List.append_assoc] at hfeeds ⊢
  have hrest : run ++ right ≠ [] := by simp [hne]
  rw [position_byteLength, before_byteLength, ← byteLength_eq_length_iff,
    place?_eq_iff (List.forall_mem_append.mp hfeeds).1 hrest (length_le_byteLength left)]
  refine ⟨And.left, fun hleft => ⟨hleft, ?_⟩⟩
  have hlength := byteLength_eq_length_iff.mpr hrun
  simp only [byteLength_append, hleft, hlength, List.length_append]
  omega

end SimSetup.Report
