/-!
# Texts in segments

A text is cut at every place where a separator stands. The pieces, with the separator put back
between them, are the text.
-/

namespace SimSetup.Text

variable {α : Type} [DecidableEq α]

/-- The pieces between the separators; a text without one is a single piece. -/
def segments (separator : α) : List α → List (List α)
  | [] => [[]]
  | c :: cs =>
    if c = separator then [] :: segments separator cs
    else match segments separator cs with
      | [] => [[c]]
      | piece :: pieces => (c :: piece) :: pieces

theorem segments_ne_nil (separator : α) (cs : List α) : segments separator cs ≠ [] := by
  cases cs with
  | nil => simp [segments]
  | cons c cs =>
    rw [segments]
    split
    · simp
    · split <;> simp

theorem segments_separator (separator : α) (cs : List α) :
    segments separator (separator :: cs) = [] :: segments separator cs := if_pos rfl

theorem segments_cons {separator c : α} (hc : c ≠ separator) (cs : List α) :
    ∃ piece pieces, segments separator cs = piece :: pieces ∧
      segments separator (c :: cs) = (c :: piece) :: pieces := by
  obtain ⟨piece, pieces, h⟩ := List.exists_cons_of_ne_nil (segments_ne_nil separator cs)
  exact ⟨piece, pieces, h, by rw [segments, if_neg hc, h]⟩

theorem intercalate_segments (separator : α) (cs : List α) :
    [separator].intercalate (segments separator cs) = cs := by
  induction cs with
  | nil => rfl
  | cons c cs ih =>
    by_cases hc : c = separator
    · obtain ⟨piece, pieces, h⟩ := List.exists_cons_of_ne_nil (segments_ne_nil separator cs)
      rw [hc, segments_separator, h, List.intercalate_cons_cons, ← h, ih]
      rfl
    · obtain ⟨piece, pieces, h, hcons⟩ := segments_cons hc cs
      rw [h] at ih
      rw [hcons]
      cases pieces with
      | nil => simpa using ih
      | cons next pieces => simpa [List.intercalate_cons_cons] using ih

theorem segments_of_not_mem {separator : α} {cs : List α} (h : separator ∉ cs) :
    segments separator cs = [cs] := by
  induction cs with
  | nil => rfl
  | cons c cs ih =>
    rw [List.mem_cons, not_or] at h
    obtain ⟨piece, pieces, hs, hcons⟩ := segments_cons (Ne.symm h.1) cs
    obtain ⟨rfl, rfl⟩ := List.cons.inj ((ih h.2).symm.trans hs)
    exact hcons

theorem segments_run {separator : α} {run : List α} (h : separator ∉ run) (cs : List α) :
    ∃ piece pieces, segments separator (run ++ cs) = (run ++ piece) :: pieces := by
  induction run with
  | nil => exact List.exists_cons_of_ne_nil (segments_ne_nil separator cs)
  | cons c run ih =>
    rw [List.mem_cons, not_or] at h
    obtain ⟨piece, pieces, hs⟩ := ih h.2
    obtain ⟨_, _, hs', hcons⟩ := segments_cons (Ne.symm h.1) (run ++ cs)
    obtain ⟨rfl, rfl⟩ := List.cons.inj (hs.symm.trans hs')
    exact ⟨piece, pieces, hcons⟩

theorem segments_append (separator : α) (cs ds : List α) :
    segments separator (cs ++ separator :: ds) = segments separator cs ++ segments separator ds := by
  induction cs with
  | nil => exact segments_separator separator ds
  | cons c cs ih =>
    by_cases hc : c = separator
    · rw [hc, List.cons_append, segments_separator, segments_separator, ih]
      rfl
    · obtain ⟨piece, pieces, h, hcons⟩ := segments_cons hc cs
      obtain ⟨_, _, hs, hall⟩ := segments_cons hc (cs ++ separator :: ds)
      rw [ih, h] at hs
      obtain ⟨rfl, rfl⟩ := List.cons.inj hs
      rw [List.cons_append, hall, hcons]
      rfl

theorem segments_intercalate {separator : α} {pieces : List (List α)} (hne : pieces ≠ [])
    (h : ∀ piece ∈ pieces, separator ∉ piece) :
    segments separator ([separator].intercalate pieces) = pieces := by
  induction pieces with
  | nil => exact absurd rfl hne
  | cons piece pieces ih =>
    rw [List.forall_mem_cons] at h
    cases pieces with
    | nil => rw [List.intercalate_singleton, segments_of_not_mem h.1]
    | cons next pieces =>
      rw [List.intercalate_cons_cons, List.append_assoc, List.singleton_append, segments_append,
        segments_of_not_mem h.1, ih (List.cons_ne_nil _ _) h.2]
      rfl

theorem segments_flatMap {separator : α} {pieces : List (List α)}
    (h : ∀ piece ∈ pieces, separator ∉ piece) (cs : List α) :
    segments separator (pieces.flatMap (· ++ [separator]) ++ cs) =
      pieces ++ segments separator cs := by
  induction pieces with
  | nil => rfl
  | cons piece pieces ih =>
    rw [List.forall_mem_cons] at h
    rw [List.flatMap_cons, List.append_assoc, List.append_assoc, List.singleton_append,
      segments_append, segments_of_not_mem h.1, ih h.2]
    rfl

omit [DecidableEq α] in
theorem intercalate_upTo (separator : α) {pieces : List (List α)} (h : pieces[i]? = some piece) :
    ∃ rest, [separator].intercalate pieces =
      (pieces.take i).flatMap (· ++ [separator]) ++ piece ++ rest := by
  induction pieces generalizing i with
  | nil => cases h
  | cons first pieces ih =>
    cases i with
    | zero =>
      obtain rfl := Option.some.inj h
      cases pieces with
      | nil => exact ⟨[], by simp⟩
      | cons next pieces => exact ⟨separator :: [separator].intercalate (next :: pieces), by simp⟩
    | succ i =>
      rw [List.getElem?_cons_succ] at h
      obtain ⟨rest, hrest⟩ := ih h
      have hne := List.ne_nil_of_mem (List.mem_of_getElem? h)
      obtain ⟨next, later, rfl⟩ := List.exists_cons_of_ne_nil hne
      refine ⟨rest, ?_⟩
      rw [List.intercalate_cons_cons, hrest]
      simp

/-- Up to one of its pieces a text is the pieces before it, each with a separator behind it. -/
theorem exists_of_segments {separator : α} {cs : List α}
    (h : (segments separator cs)[i]? = some piece) :
    ∃ rest, cs = ((segments separator cs).take i).flatMap (· ++ [separator]) ++ piece ++ rest := by
  obtain ⟨rest, hrest⟩ := intercalate_upTo separator h
  exact ⟨rest, (intercalate_segments separator cs).symm.trans hrest⟩

omit [DecidableEq α] in
/-- A text is cut in one way at the first place where a separator stands. -/
theorem append_cons_inj {x : α} {a b s t : List α} (ha : x ∉ a) (hb : x ∉ b)
    (h : a ++ x :: s = b ++ x :: t) : a = b ∧ s = t := by
  induction a generalizing b with
  | nil =>
    cases b with
    | nil => exact ⟨rfl, (List.cons.inj h).2⟩
    | cons y b => exact absurd ((List.cons.inj h).1 ▸ List.mem_cons_self) hb
  | cons y a ih =>
    cases b with
    | nil => exact absurd ((List.cons.inj h).1 ▸ List.mem_cons_self) ha
    | cons z b =>
      obtain ⟨rfl, htails⟩ := List.cons.inj h
      obtain ⟨rfl, rfl⟩ := ih (fun hmem => ha (.tail _ hmem)) (fun hmem => hb (.tail _ hmem)) htails
      exact ⟨rfl, rfl⟩

theorem not_mem_of_mem_segments {separator : α} {cs piece : List α}
    (h : piece ∈ segments separator cs) : separator ∉ piece := by
  induction cs generalizing piece with
  | nil =>
    obtain rfl := List.mem_singleton.mp h
    exact List.not_mem_nil
  | cons c cs ih =>
    by_cases hc : c = separator
    · rw [hc, segments_separator] at h
      rcases List.mem_cons.mp h with rfl | h
      · exact List.not_mem_nil
      · exact ih h
    · obtain ⟨first, rest, hs, hcons⟩ := segments_cons hc cs
      rw [hs] at ih
      rw [hcons] at h
      rcases List.mem_cons.mp h with rfl | h
      · exact List.not_mem_cons_of_ne_of_not_mem (Ne.symm hc) (ih List.mem_cons_self)
      · exact ih (List.mem_cons_of_mem _ h)

end SimSetup.Text
