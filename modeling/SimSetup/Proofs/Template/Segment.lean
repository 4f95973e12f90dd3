import SimSetup.Proofs.Template.Scan

/-!
# Templates for any text

A text with holes is written as a template by doubling the dollar signs of its literal parts and
writing each hole as a key in braces. Whatever the parts are, filling the template gives the literal
parts back and a value for each hole: no dollar sign of one part is read together with the next.
-/

namespace SimSetup.Template

open Text (byteLength)

inductive Segment
  | literal (text : String)
  | hole (key : String) (isKey : IsKey key.toList)

/-- Writes every dollar sign twice. -/
def double (text : List Char) : List Char :=
  text.flatMap fun c => if c = '$' then ['$', '$'] else [c]

namespace Segment

def key? : Segment → Option String
  | literal _ => none
  | hole key _ => some key

def written : Segment → List Char
  | literal text => double text.toList
  | hole key _ => '$' :: '{' :: (key.toList ++ ['}'])

def filled (bindings : Bindings) : Segment → String
  | literal text => text
  | hole key _ => bindings.getD key ""

def Bound (bindings : Bindings) (s : Segment) : Prop := ∀ key, s.key? = some key → key ∈ bindings

end Segment

/-- The keys of the holes, each as often as it occurs. -/
def holes (segments : List Segment) : List String := segments.filterMap Segment.key?

def written (segments : List Segment) : List Char := segments.flatMap Segment.written

def templateOf (segments : List Segment) : String := .ofList (written segments)

theorem toList_templateOf (segments : List Segment) :
    (templateOf segments).toList = written segments :=
  String.toList_ofList

-- ---------------------------------------------------------------------------
-- Scanning segments
-- ---------------------------------------------------------------------------

theorem double_cons (c : Char) (text : List Char) :
    double (c :: text) = (if c = '$' then ['$', '$'] else [c]) ++ double text :=
  List.flatMap_cons

section
variable {bindings : Bindings} {seen rest : List Char} {o : Outcome}

theorem Scan.double (text : List Char) (h : Scan bindings (seen ++ double text) rest o) :
    Scan bindings seen (double text ++ rest) (o.prepend (.ofList text)) := by
  induction text generalizing seen with
  | nil => cases o <;> simpa [Template.double, Outcome.prepend] using h
  | cons c text ih =>
    rw [double_cons] at h ⊢
    have happ : String.ofList (c :: text) = .ofList [c] ++ .ofList text := by
      rw [← String.ofList_append, List.singleton_append]
    rw [happ, ← Outcome.prepend_prepend]
    by_cases hc : c = '$'
    · subst hc
      exact .escape (ih (by simpa using h))
    · rw [if_neg hc] at h ⊢
      exact .copy hc (ih (by simpa using h))

theorem placeholder_hole {key : String} (isKey : IsKey key.toList) (rest : List Char) :
    Placeholder key.toList (Segment.hole key isKey).written rest :=
  .braced isKey

theorem Scan.segment {s : Segment} (hs : s.Bound bindings)
    (h : Scan bindings (seen ++ s.written) rest o) :
    Scan bindings seen (s.written ++ rest) (o.prepend (s.filled bindings)) := by
  cases s with
  | literal text =>
    have hscan := Scan.double text.toList h
    rwa [String.ofList_toList] at hscan
  | hole key isKey =>
    have hkey : key ∈ bindings := hs key rfl
    refine .bound (placeholder_hole isKey rest) ?_ h
    rw [String.ofList_toList, Segment.filled, Std.ExtTreeMap.getElem?_eq_some_getD hkey]

theorem Scan.segments {segments : List Segment} (hs : ∀ s ∈ segments, s.Bound bindings)
    (h : Scan bindings (seen ++ written segments) rest o) :
    Scan bindings seen (written segments ++ rest)
      (o.prepend (String.join (segments.map (Segment.filled bindings)))) := by
  induction segments generalizing seen with
  | nil => cases o <;> simpa [written, Outcome.prepend] using h
  | cons s segments ih =>
    obtain ⟨hbound, hall⟩ := List.forall_mem_cons.mp hs
    rw [written, List.flatMap_cons] at h ⊢
    rw [List.map_cons, String.join_cons, ← Outcome.prepend_prepend, List.append_assoc]
    exact (ih hall (by simpa [written] using h)).segment hbound

/-- The scan stops at the first hole without a value. -/
theorem Scan.hole_unbound {before after : List Segment} (hs : ∀ s ∈ before, s.Bound bindings)
    {key : String} (isKey : IsKey key.toList) (hkey : key ∉ bindings) :
    Scan bindings [] (written (before ++ .hole key isKey :: after))
      (.missing key ⟨byteLength (written before),
        byteLength (written (before ++ [.hole key isKey]))⟩) := by
  have hnone : bindings[String.ofList key.toList]? = none := by
    rw [String.ofList_toList]
    exact (getElem?_eq_none_iff _ _).mpr hkey
  have hstop : Scan bindings (written before)
      ((Segment.hole key isKey).written ++ written after) _ :=
    .unbound (placeholder_hole isKey _) hnone
  have hscan := @Scan.segments bindings [] _ _ before hs hstop
  simpa [written, Outcome.prepend] using hscan

end

-- ---------------------------------------------------------------------------
-- Listing holes
-- ---------------------------------------------------------------------------

def keysOf (cs : List Char) : List String := (tokens cs).filterMap Token.key?

theorem keysOf_nil : keysOf [] = [] := by
  rw [keysOf, tokens]
  rfl

theorem keysOf_copy (hc : c ≠ '$') (rest : List Char) : keysOf (c :: rest) = keysOf rest := by
  rw [keysOf, tokens_copy hc, List.filterMap_cons_none rfl]
  -- the run of text that the character opens goes on, unless a dollar sign follows
  cases rest with
  | nil => rfl
  | cons d rest =>
    by_cases hd : d = '$'
    · simp [keysOf, hd]
    · rw [keysOf, tokens_copy hd, List.filterMap_cons_none rfl, List.dropWhile_cons_of_pos (by simpa)]

theorem keysOf_escape (rest : List Char) : keysOf ('$' :: '$' :: rest) = keysOf rest := by
  rw [keysOf, tokens, next_dollar]
  rfl

theorem Placeholder.keysOf (h : Placeholder key occurrence rest) :
    keysOf (occurrence ++ rest) = .ofList key :: keysOf rest := by
  obtain ⟨t, hkey, -, htokens⟩ := h.tokens
  rw [Template.keysOf, htokens, List.filterMap_cons_some hkey]
  rfl

theorem keysOf_double (text rest : List Char) : keysOf (double text ++ rest) = keysOf rest := by
  induction text with
  | nil => rfl
  | cons c text ih =>
    rw [double_cons, List.append_assoc]
    by_cases hc : c = '$'
    · rw [if_pos hc]
      exact (keysOf_escape _).trans ih
    · rw [if_neg hc]
      exact (keysOf_copy hc _).trans ih

theorem keysOf_written (segments : List Segment) : keysOf (written segments) = holes segments := by
  induction segments with
  | nil => exact keysOf_nil
  | cons s segments ih =>
    rw [written, List.flatMap_cons, ← written]
    cases s with
    | literal text => exact (keysOf_double _ _).trans ih
    | hole key isKey =>
      rw [(placeholder_hole isKey _).keysOf, ih, String.ofList_toList]
      rfl

-- ---------------------------------------------------------------------------
-- Filling segments
-- ---------------------------------------------------------------------------

section
variable {bindings : Bindings} {segments : List Segment}

theorem substitute_templateOf (hs : ∀ s ∈ segments, s.Bound bindings) :
    substitute (templateOf segments) bindings =
      .ok (String.join (segments.map (Segment.filled bindings))) := by
  have hscan := @Scan.segments bindings [] [] _ segments hs .done
  rw [List.append_nil, ← toList_templateOf] at hscan
  have hfilled := hscan.ofResult_substitute
  rwa [Outcome.prepend, String.append_empty, Outcome.ofResult_eq_filled] at hfilled

theorem substitute_hole_unbound {before after : List Segment} (hs : ∀ s ∈ before, s.Bound bindings)
    {key : String} (isKey : IsKey key.toList) (hkey : key ∉ bindings) :
    substitute (templateOf (before ++ .hole key isKey :: after)) bindings =
      .error (.missingKey key ⟨byteLength (written before),
        byteLength (written (before ++ [.hole key isKey]))⟩) := by
  have hscan := @Scan.hole_unbound bindings before after hs key isKey hkey
  rw [← toList_templateOf] at hscan
  exact Outcome.ofResult_eq_missing.mp hscan.ofResult_substitute

theorem exists_first_unbound (h : ¬ ∀ s ∈ segments, s.Bound bindings) :
    ∃ before key isKey after, segments = before ++ .hole key isKey :: after ∧
      (∀ s ∈ before, s.Bound bindings) ∧ key ∉ bindings := by
  induction segments with
  | nil => exact absurd (by simp) h
  | cons s segments ih =>
    by_cases hs : s.Bound bindings
    · obtain ⟨before, key, isKey, after, rfl, hbefore, hkey⟩ :=
        ih fun hall => h (List.forall_mem_cons.mpr ⟨hs, hall⟩)
      exact ⟨s :: before, key, isKey, after, rfl, List.forall_mem_cons.mpr ⟨hs, hbefore⟩, hkey⟩
    · cases s with
      | literal text => exact absurd (fun _ hkey => nomatch hkey) hs
      | hole key isKey =>
        refine ⟨[], key, isKey, segments, rfl, by simp, fun hkey => hs ?_⟩
        rintro _ ⟨⟩
        exact hkey

theorem bound_iff_holes :
    (∀ s ∈ segments, s.Bound bindings) ↔ ∀ key ∈ holes segments, key ∈ bindings := by
  simp only [Segment.Bound, holes, List.mem_filterMap]
  exact ⟨fun h key ⟨s, hs, hkey⟩ => h s hs key hkey, fun h s hs key hkey => h key ⟨s, hs, hkey⟩⟩

end

/-- A template can be written for any text with holes: its placeholders are the holes, filling it
gives the literal parts and the values as they are, and it fails at the first hole without a value.
A text without holes comes back whatever the bindings are. -/
theorem template_expresses (segments : List Segment) (bindings : Bindings) :
    placeholders (templateOf segments) = (holes segments).eraseDups ∧
      ((∀ key ∈ holes segments, key ∈ bindings) →
        substitute (templateOf segments) bindings =
          .ok (String.join (segments.map (Segment.filled bindings)))) ∧
      ((∃ key ∈ holes segments, key ∉ bindings) → ∃ before key isKey after,
        segments = before ++ .hole key isKey :: after ∧
          (∀ k ∈ holes before, k ∈ bindings) ∧ key ∉ bindings ∧
          substitute (templateOf segments) bindings =
            .error (.missingKey key ⟨byteLength (written before),
              byteLength (written (before ++ [.hole key isKey]))⟩)) ∧
      ∀ text : String, substitute (.ofList (double text.toList)) bindings = .ok text := by
  refine ⟨?_, fun hbound => ?_, fun ⟨key, hmem, hkey⟩ => ?_, fun text => ?_⟩
  · rw [← keysOf_written, placeholders, templateOf, String.toList_ofList, keysOf]
  · exact substitute_templateOf (bound_iff_holes.mpr hbound)
  · obtain ⟨before, key, isKey, after, rfl, hbefore, hnot⟩ := exists_first_unbound
      fun hall : ∀ s ∈ segments, s.Bound bindings => hkey (bound_iff_holes.mp hall key hmem)
    exact ⟨before, key, isKey, after, rfl, bound_iff_holes.mp hbefore, hnot,
      substitute_hole_unbound hbefore isKey hnot⟩
  · have hliteral := @substitute_templateOf bindings [.literal text]
      (by simp [Segment.Bound, Segment.key?])
    simpa [templateOf, written, Segment.written, Segment.filled] using hliteral

/-- Two doubled dollar signs stand before a hole, and the value of one hole looks like another. -/
theorem template_expresses_adjacent : ∃ segments : List Segment,
    templateOf segments = "$$$$$\x7ba\x7d$$\x7bb\x7d$\x7bb\x7d" ∧
      placeholders (templateOf segments) = ["a", "b"] ∧
      substitute (templateOf segments) (.ofList [("a", "$b"), ("b", "$$")]) =
        .ok "$$$b$\x7bb\x7d$$" ∧
      ∃ span, substitute (templateOf segments) (.ofList [("a", "$b")]) =
        .error (.missingKey "b" span) := by
  let segments : List Segment :=
    [.literal "$$", .hole "a" (.intro (isKeyStart_iff.mp (by decide)) (by simp)),
      .literal "$\x7bb\x7d", .hole "b" (.intro (isKeyStart_iff.mp (by decide)) (by simp))]
  let unbound : Bindings := .ofList [("a", "$b")]
  obtain ⟨hplaceholders, hfilled, -⟩ :=
    template_expresses segments (.ofList [("a", "$b"), ("b", "$$")])
  obtain ⟨-, -, hmissing, -⟩ := template_expresses segments unbound
  refine ⟨segments, by decide +kernel, hplaceholders.trans (by decide +kernel),
    (hfilled (by decide +kernel)).trans (congrArg _ (by decide +kernel)), ?_⟩
  obtain ⟨before, key, isKey, after, heq, -, hnot, hfault⟩ :=
    hmissing ⟨"b", by decide +kernel, by decide +kernel⟩
  have hkey : key ∈ holes segments := by simp [heq, holes, Segment.key?]
  have honly : ∀ key ∈ holes segments, key ∉ unbound → key = "b" := by decide +kernel
  obtain rfl := honly key hkey hnot
  exact ⟨_, hfault⟩

end SimSetup.Template
