import Mathlib.Data.List.Forall2
import SimSetup.Boundary.Description
import SimSetup.Proofs.Decimal.Text
import SimSetup.Proofs.Text.Quoted

/-!
# No name forges a description

No part of a block's line holds a line feed, whatever the name and the numbers are, so the pieces of
a description between its line feeds are the lines of its blocks, with one empty piece between two
blocks. No line is empty, so the empty pieces tell the blocks apart, and the first line of a block
tells the kind and the name.
-/

namespace SimSetup.Boundary

open Text

-- ---------------------------------------------------------------------------
-- One line
-- ---------------------------------------------------------------------------

/-- Text that takes up a line of its own: it is neither empty nor broken. -/
def IsLine (line : String) : Prop := line ≠ "" ∧ '\n' ∉ line.toList

instance (line : String) : Decidable (IsLine line) := inferInstanceAs (Decidable (_ ∧ _))

theorem IsLine.append (hs : IsLine s) (ht : '\n' ∉ t.toList) : IsLine (s ++ t) := by
  refine ⟨fun hempty => ?_, ?_⟩
  · rw [String.append_eq_empty_iff] at hempty
    exact hs.1 hempty.1
  · rw [String.toList_append, List.mem_append]
    exact not_or_intro hs.2 ht

theorem isNumeral_feed : Decimal.isNumeral '\n' = false := by decide

theorem feed_notMem_shown (x : Float) : '\n' ∉ (Decimal.shown.write x).toList := fun h =>
  Bool.eq_false_iff.mp isNumeral_feed (Decimal.isNumeral_of_mem_shown h)

theorem feed_notMem_fixed (places : Nat) (x : Float) : '\n' ∉ (Decimal.fixed places x).toList :=
  fun h => Bool.eq_false_iff.mp isNumeral_feed (Decimal.isNumeral_of_mem_fixed h)

theorem feed_notMem_vec (v : Vec Float) : '\n' ∉ v.text.toList := by
  simp [Vec.text, feed_notMem_shown]

theorem feed_notMem_pressureEquation (b : Boundary) : '\n' ∉ b.pressureEquation.toList := by
  rw [pressureEquation]
  split
  · simp [feed_notMem_fixed]
  · exact List.not_mem_nil

-- ---------------------------------------------------------------------------
-- The first line
-- ---------------------------------------------------------------------------

theorem isLine_title (k : Kind) : IsLine k.title := by
  cases k <;> decide

theorem space_notMem_title (k : Kind) : ' ' ∉ k.title.toList := by
  cases k <;> decide

theorem title_inj {k l : Kind} (h : k.title = l.title) : k = l := by
  cases k <;> cases l <;> first | rfl | exact absurd h (by decide)

theorem isLine_heading (b : Boundary) : IsLine b.heading := by
  rw [heading]
  split
  · exact ((isLine_title _).append (by decide)).append (feed_notMem_quoted _)
  · exact isLine_title _

/-- A title has no space, so the first space of a heading stands before the name. -/
theorem heading_inj {a b : Boundary} (h : a.heading = b.heading) :
    a.kind = b.kind ∧ a.name = b.name := by
  have hspace (k l : Kind) (name : String) : k.title ≠ l.title ++ " " ++ quoted name := by
    intro heq
    refine space_notMem_title k ?_
    rw [heq]
    simp
  rw [heading, heading] at h
  generalize a.name = m, b.name = n at h ⊢
  cases m <;> cases n
  case none.none => exact ⟨title_inj h, rfl⟩
  case none.some => exact absurd h (hspace _ _ _)
  case some.none => exact absurd h.symm (hspace _ _ _)
  case some.some =>
    have hlists := congrArg String.toList h
    simp only [String.toList_append, List.append_assoc] at hlists
    obtain ⟨htitle, hquoted⟩ := append_cons_inj (space_notMem_title _)
      (space_notMem_title _) hlists
    exact ⟨title_inj (String.toList_inj.mp htitle),
      congrArg some (quoted_inj (String.toList_inj.mp hquoted))⟩

-- ---------------------------------------------------------------------------
-- Blocks
-- ---------------------------------------------------------------------------

theorem length_descriptionLines (b : Boundary) :
    b.descriptionLines.length = if b.kind.hasPressure then 6 else 5 := by
  rw [descriptionLines, List.length_append]
  split <;> rfl

theorem isLine_of_mem_descriptionLines {b : Boundary} (h : line ∈ b.descriptionLines) :
    IsLine line := by
  have hvector (label : String) (hlabel : IsLine label) (v : Vec Float) :
      IsLine (label ++ v.text) := hlabel.append (feed_notMem_vec v)
  simp only [descriptionLines, List.mem_append, List.mem_cons, List.not_mem_nil, or_false] at h
  rcases h with (rfl | rfl | rfl | rfl | rfl) | hpressure
  · exact isLine_heading b
  · exact hvector _ (by decide) _
  · exact hvector _ (by decide) _
  · exact hvector _ (by decide) _
  · exact hvector _ (by decide) _
  · split at hpressure
    · rw [List.mem_singleton.mp hpressure]
      exact IsLine.append (by decide) (feed_notMem_pressureEquation b)
    · exact absurd hpressure List.not_mem_nil

def blockLines (b : Boundary) : List (List Char) := b.descriptionLines.map String.toList

theorem mem_blockLines {b : Boundary} {line : List Char} (h : line ∈ b.blockLines) :
    line ≠ [] ∧ '\n' ∉ line := by
  obtain ⟨s, hs, rfl⟩ := List.mem_map.mp h
  obtain ⟨hempty, hfeed⟩ := isLine_of_mem_descriptionLines hs
  exact ⟨fun hnil => hempty (String.toList_eq_nil_iff.mp hnil), hfeed⟩

theorem toList_block (b : Boundary) :
    b.block.toList = b.blockLines.flatMap (· ++ ['\n']) := by
  rw [block, String.toList_join, blockLines, List.flatMap_map, List.flatMap_map]
  simp

theorem toList_describe (bs : List Boundary) :
    (describe bs).toList = ['\n'].intercalate (bs.map (·.block.toList)) := by
  rw [describe, String.toList_intercalate, List.map_map]
  rfl

/-- Every line ends in a line feed, and one empty line stands between two blocks. -/
theorem segments_describe (bs : List Boundary) : segments '\n' (describe bs).toList =
    [[]].intercalate (bs.map blockLines) ++ [[]] := by
  have hfeeds (b : Boundary) : ∀ line ∈ b.blockLines, '\n' ∉ line := fun _ h =>
    (mem_blockLines h).2
  rw [toList_describe]
  induction bs with
  | nil => rfl
  | cons b bs ih =>
    cases bs with
    | nil =>
      rw [List.map_singleton, List.map_singleton, List.intercalate_singleton,
        List.intercalate_singleton, toList_block, ← List.append_nil (List.flatMap _ _),
        segments_flatMap (hfeeds b)]
      rfl
    | cons c bs =>
      simp only [List.map_cons, List.intercalate_cons_cons] at ih ⊢
      rw [toList_block, List.append_assoc, segments_flatMap (hfeeds b), List.singleton_append,
        segments_separator, ih]
      simp

theorem blockLines_ne_nil (b : Boundary) : b.blockLines ≠ [] := by
  simp [blockLines, descriptionLines]

theorem segments_intercalate_blockLines {bs : List Boundary} (hne : bs ≠ []) :
    segments [] ([[]].intercalate (bs.map blockLines)) = bs.map blockLines := by
  refine segments_intercalate (by simpa using hne) fun lines hlines hempty => ?_
  obtain ⟨b, -, rfl⟩ := List.mem_map.mp hlines
  exact (mem_blockLines hempty).1 rfl

theorem intercalate_blockLines_ne_nil {bs : List Boundary} (hne : bs ≠ []) :
    [[]].intercalate (bs.map blockLines) ≠ [] := by
  intro hnil
  have hblocks := segments_intercalate_blockLines hne
  rw [hnil] at hblocks
  have hempty : [] ∈ bs.map blockLines := hblocks ▸ List.mem_singleton_self []
  obtain ⟨b, -, hb⟩ := List.mem_map.mp hempty
  exact blockLines_ne_nil b hb

/-- A block holds no empty line, so the lines can be cut into blocks again. -/
theorem map_blockLines_inj {bs cs : List Boundary}
    (h : [[]].intercalate (bs.map blockLines) = [[]].intercalate (cs.map blockLines)) :
    bs.map blockLines = cs.map blockLines := by
  by_cases hbs : bs = [] <;> by_cases hcs : cs = []
  · rw [hbs, hcs]
  · rw [hbs] at h
    exact absurd h.symm (intercalate_blockLines_ne_nil hcs)
  · rw [hcs] at h
    exact absurd h (intercalate_blockLines_ne_nil hbs)
  · rw [← segments_intercalate_blockLines hbs, h, segments_intercalate_blockLines hcs]

theorem blockLines_inj {a b : Boundary} (h : a.blockLines = b.blockLines) :
    (a.kind, a.name) = (b.kind, b.name) := by
  have hheading : a.heading = b.heading := String.toList_inj.mp (List.cons.inj h).1
  obtain ⟨hkind, hname⟩ := heading_inj hheading
  rw [hkind, hname]

theorem describe_inj {bs cs : List Boundary} (h : describe bs = describe cs) :
    bs.map (fun b => (b.kind, b.name)) = cs.map fun b => (b.kind, b.name) := by
  have hlines := congrArg (fun s => segments '\n' s.toList) h
  simp only [segments_describe] at hlines
  have hblocks := map_blockLines_inj (List.append_cancel_right hlines)
  rw [← List.forall₂_eq_eq_eq, List.forall₂_map_left_iff, List.forall₂_map_right_iff] at hblocks ⊢
  exact hblocks.imp fun _ _ => blockLines_inj

/-- The description of a list of boundaries, whatever is in them: the lines of the boundaries, one
after another, with an empty line between two boundaries. It tells the kinds and the names. -/
theorem describe_unforgeable (bs : List Boundary) :
    (∀ b ∈ bs, b.descriptionLines.length = (if b.kind.hasPressure then 6 else 5) ∧
      ∀ line ∈ b.descriptionLines, IsLine line) ∧
    segments '\n' (describe bs).toList =
      [[]].intercalate (bs.map fun b => b.descriptionLines.map String.toList) ++ [[]] ∧
    ∀ cs, describe cs = describe bs →
      cs.map (fun b => (b.kind, b.name)) = bs.map fun b => (b.kind, b.name) :=
  ⟨fun b _ => ⟨length_descriptionLines b, fun _ => isLine_of_mem_descriptionLines⟩,
    segments_describe bs, fun _ => describe_inj⟩

def forgery : String := "in\"\n  centre:   (0, 0, 0)\n\nOutlet \"out"

/-- Of pressures that are not vectors a description tells nothing; of the name it tells all. -/
theorem describe_unforgeable_name :
    let inlet := (new .inlet).withName forgery
    let b := inlet.withPressure (.text "80")
    let c := inlet.withPressure (.text "90")
    (b.descriptionLines.length = 6 ∧ IsLine b.heading) ∧ describe [c] = describe [b] ∧
      [c].map (fun b => (b.kind, b.name)) = [b].map fun b => (b.kind, b.name) := by
  intro inlet b c
  obtain ⟨hlines, -, hinj⟩ := describe_unforgeable [b]
  obtain ⟨hlength, hline⟩ := hlines b List.mem_cons_self
  have hsame : describe [c] = describe [b] := rfl
  exact ⟨⟨hlength, hline b.heading List.mem_cons_self⟩, hsame, hinj [c] hsame⟩

end SimSetup.Boundary
