import SimSetup.Proofs.Boundary.Entries
import SimSetup.Proofs.Text.ByteOrder

/-!
# What comes of building from a mapping

A mapping with keys that the kind does not have is refused for the least of them. Any other is read
attribute by attribute: it is refused for the first attribute that is given a value of the wrong
shape, and if there is none it builds a boundary in which every attribute has what it keeps of its
value, or its default.
-/

namespace SimSetup.Boundary

open Text (bytes)

/-- `a.Keeps v w`: the value of `a` is `w` when it is given `v`. A value of which nothing is kept
has the wrong shape. -/
inductive Attribute.Keeps : Attribute → Value → Value → Prop
  | unnamed : Keeps .name .none .none
  | named : Keeps .name (.text s) (.text s)
  | vector (ha : a = .centre ∨ a = .normal) : Keeps a (.vector v) (.vector v)
  | triple (ha : a = .centre ∨ a = .normal) :
    Keeps a (.list [.number x, .number y, .number z]) (.vector ⟨x, y, z⟩)
  | radius : Keeps .radius (.number r) (.number r)
  | pressure (h : ¬ v.Gapped) : Keeps .pressure v v.canonical

/-- `Merged given a w`: the defaults overridden by the mapping give `a` the value `w`. -/
inductive Merged (given : Attributes) (a : Attribute) : Value → Prop
  | given (hv : given[a.label]? = some v) (hw : a.Keeps v w) : Merged given a w
  | default (h : a.label ∉ given) : Merged given a a.default

def Misfit (given : Attributes) (a : Attribute) : Prop :=
  ∃ v, given[a.label]? = some v ∧ ∀ w, ¬ a.Keeps v w

/-- No attribute that the kind declares before `a` is given a value of the wrong shape. -/
def FirstMisfit (k : Kind) (given : Attributes) (a : Attribute) : Prop :=
  ∃ before after, k.attributes = before ++ a :: after ∧ Misfit given a ∧
    ∀ earlier ∈ before, ¬ Misfit given earlier

/-- The kind has no attribute `key`, and none of the keys below it that the mapping has. -/
structure LeastUnknown (k : Kind) (given : Attributes) (key : String) : Prop where
  mem : key ∈ given
  unknown : k.recognizes key = false
  least : ∀ other ∈ given, k.recognizes other = false → bytes key ≤ bytes other

theorem not_known_of_exists {given : Attributes} (h : ∃ key ∈ given, k.recognizes key = false) :
    ¬ ∀ key ∈ given, Kind.recognizes k key = true := by
  obtain ⟨key, hkey, hunknown⟩ := h
  intro hknown
  simp [hknown key hkey] at hunknown

theorem LeastUnknown.not_known (h : LeastUnknown k given key) :
    ¬ ∀ key ∈ given, k.recognizes key = true :=
  not_known_of_exists ⟨key, h.mem, h.unknown⟩

theorem FirstMisfit.mem (h : FirstMisfit k given a) : a ∈ k.attributes := by
  obtain ⟨before, after, has, -⟩ := h
  simp [has]

theorem FirstMisfit.misfit (h : FirstMisfit k given a) : Misfit given a := by
  obtain ⟨_, _, -, hmisfit, -⟩ := h
  exact hmisfit

-- ---------------------------------------------------------------------------
-- One attribute
-- ---------------------------------------------------------------------------

theorem Attribute.keeps_vector (ha : a = .centre ∨ a = .normal) (h : v.vector? = some vec) :
    Keeps a v (.vector vec) := by
  cases v with
  | vector => cases h; exact .vector ha
  | list items => rw [Value.triple?_eq_some.mp h]; exact .triple ha
  | none | number | text => cases h

theorem Attribute.keeps_iff {a : Attribute} : a.Keeps v w ↔ a.stored v = some w := by
  constructor
  · intro h
    cases h with
    | unnamed | named | radius => rfl
    | vector ha | triple ha => rcases ha with rfl | rfl <;> rfl
    | pressure hgap => simp [stored, Value.hasGap_iff, hgap]
  · intro h
    cases a with
    | name =>
      cases v with
      | none => cases h; exact .unnamed
      | text s => cases h; exact .named
      | number | vector | list => cases h
    | centre =>
      obtain ⟨vec, hvec, rfl⟩ := Option.map_eq_some_iff.mp h
      exact keeps_vector (.inl rfl) hvec
    | normal =>
      obtain ⟨vec, hvec, rfl⟩ := Option.map_eq_some_iff.mp h
      exact keeps_vector (.inr rfl) hvec
    | radius =>
      obtain ⟨r, hr, rfl⟩ := Option.map_eq_some_iff.mp h
      cases v with
      | number => cases hr; exact .radius
      | none | text | vector | list => cases hr
    | pressure =>
      rw [stored] at h
      split at h
      · cases h
      · next hgap => cases h; exact .pressure fun hv => hgap (Value.hasGap_iff.mpr hv)

section
variable {given : Attributes} {a : Attribute}

theorem merged_iff : Merged given a w ↔ a.stored (given.getD a.label a.default) = some w := by
  rw [Std.ExtTreeMap.getD_eq_getD_getElem?]
  constructor
  · rintro (⟨hv, hw⟩ | h)
    · rw [hv]
      exact Attribute.keeps_iff.mp hw
    · rw [Std.ExtTreeMap.getElem?_eq_none h]
      exact stored_default a
  · intro h
    cases hv : given[a.label]? with
    | some v =>
      rw [hv] at h
      exact .given hv (Attribute.keeps_iff.mpr h)
    | none =>
      rw [hv, Option.getD_none, stored_default] at h
      cases h
      exact .default (by simpa using hv)

theorem misfit_iff : Misfit given a ↔ a.stored (given.getD a.label a.default) = none := by
  rw [Std.ExtTreeMap.getD_eq_getD_getElem?, Option.eq_none_iff_forall_ne_some]
  constructor
  · rintro ⟨v, hv, hnot⟩ w hw
    rw [hv] at hw
    exact hnot w (Attribute.keeps_iff.mpr hw)
  · intro h
    cases hv : given[a.label]? with
    | some v =>
      rw [hv] at h
      exact ⟨v, hv, fun w hw => h w (Attribute.keeps_iff.mp hw)⟩
    | none =>
      rw [hv] at h
      exact absurd (stored_default a) (h _)

end

-- ---------------------------------------------------------------------------
-- All attributes
-- ---------------------------------------------------------------------------

theorem run_assignAll_cases (given : Attributes) (has : as ⊆ b.kind.attributes) :
    (∃ b', (assignAll given as).run b = (.ok (), b') ∧ ∀ a ∈ as, ¬ Misfit given a) ∨
      ∃ before a after b', as = before ++ a :: after ∧ Misfit given a ∧
        (∀ earlier ∈ before, ¬ Misfit given earlier) ∧
        (assignAll given as).run b = (.error a.refusal, b') := by
  induction as generalizing b with
  | nil => exact .inl ⟨b, rfl, nofun⟩
  | cons a as ih =>
    obtain ⟨ha, has⟩ := List.cons_subset.mp has
    rw [assignAll, run_bind]
    cases hstored : a.stored (given.getD a.label a.default) with
    | none =>
      rw [run_assign_refused ha hstored]
      exact .inr ⟨[], a, as, b, rfl, misfit_iff.mpr hstored, nofun, rfl⟩
    | some w =>
      have hfits : ¬ Misfit given a := by simp [misfit_iff, hstored]
      obtain ⟨b₁, hassigns⟩ := exists_assigns ha hstored
      rw [hassigns.run]
      rcases ih (hassigns.kind ▸ has) with ⟨b', hrun, hall⟩ |
        ⟨before, a', after, b', rfl, hmisfit, hbefore, hrun⟩
      · exact .inl ⟨b', hrun, List.forall_mem_cons.mpr ⟨hfits, hall⟩⟩
      · exact .inr ⟨a :: before, a', after, b', rfl, hmisfit,
          List.forall_mem_cons.mpr ⟨hfits, hbefore⟩, hrun⟩

theorem leastUnknown_of_find? (h : given.keys.find? (!Kind.recognizes k ·) = some key) :
    LeastUnknown k given key := by
  obtain ⟨hkey, before, after, hkeys, hbefore⟩ := List.find?_eq_some_iff_append.mp h
  -- keys come in increasing order, so those behind the first that is unknown are greater
  have hsorted := Std.ExtTreeMap.ordered_keys (t := given)
  rw [hkeys, List.pairwise_append, List.pairwise_cons] at hsorted
  refine ⟨Std.ExtTreeMap.mem_keys.mp (hkeys ▸ by simp), by simpa using hkey, ?_⟩
  intro other hother hunknown
  have hmem := Std.ExtTreeMap.mem_keys.mpr hother
  rw [hkeys, List.mem_append, List.mem_cons] at hmem
  rw [Text.bytes_le_iff]
  rcases hmem with hmem | rfl | hmem
  · have hknown := hbefore other hmem
    simp [hunknown] at hknown
  · exact Std.le_refl _
  · exact Std.le_of_lt (compareOfLessAndEq_eq_lt.mp (hsorted.2.1.1 other hmem))

theorem value?_of_ofAttributes (h : ofAttributes k given = .ok b) (ha : a ∈ k.attributes) :
    b.value? a = some w ↔ Merged given a w := by
  obtain ⟨-, hrun⟩ := ofAttributes_eq_ok_iff.mp h
  obtain ⟨-, hupdated⟩ := (run_setAll no_dot_completed nodup_keys_completed).mp hrun
  rw [merged_iff, hupdated.given a _ (List.mem_map_of_mem ha)]

theorem ofAttributes_cases (k : Kind) (given : Attributes) :
    (∃ key, LeastUnknown k given key ∧ ofAttributes k given = .error (.unexpected k key)) ∨
      (∀ key ∈ given, k.recognizes key = true) ∧
        ((∃ a, FirstMisfit k given a ∧ ofAttributes k given = .error a.refusal) ∨
          (∀ a ∈ k.attributes, ¬ Misfit given a) ∧ ∃ b, ofAttributes k given = .ok b) := by
  cases hfind : given.keys.find? (!k.recognizes ·) with
  | some key =>
    exact .inl ⟨key, leastUnknown_of_find? hfind, by rw [ofAttributes, hfind]⟩
  | none =>
    have hknown : ∀ key ∈ given, k.recognizes key = true := by simpa using hfind
    refine .inr ⟨hknown, ?_⟩
    rw [ofAttributes, hfind]
    rcases run_assignAll_cases given (List.Subset.refl (new k).kind.attributes) with
      ⟨b, hrun, hfits⟩ | ⟨before, a, after, b, has, hmisfit, hbefore, hrun⟩
    · exact .inr ⟨hfits, b, by rw [show (assignAll given k.attributes).run (new k) = _ from hrun]⟩
    · exact .inl ⟨a, ⟨before, after, has, hmisfit, hbefore⟩,
        by rw [show (assignAll given k.attributes).run (new k) = _ from hrun]⟩

section
variable {k : Kind} {given : Attributes}

theorem ofAttributes_of_unknown (h : ∃ key ∈ given, k.recognizes key = false) :
    ∃ key, LeastUnknown k given key ∧ ofAttributes k given = .error (.unexpected k key) := by
  obtain hunexpected | ⟨hknown, -⟩ := ofAttributes_cases k given
  · exact hunexpected
  · exact absurd hknown (not_known_of_exists h)

theorem ofAttributes_of_misfit (hknown : ∀ key ∈ given, k.recognizes key = true)
    (h : ∃ a ∈ k.attributes, Misfit given a) :
    ∃ a, FirstMisfit k given a ∧ ofAttributes k given = .error a.refusal := by
  obtain ⟨key, hleast, -⟩ | ⟨-, hinvalid | ⟨hfits, -⟩⟩ := ofAttributes_cases k given
  · exact absurd hknown hleast.not_known
  · exact hinvalid
  · obtain ⟨a, ha, hmisfit⟩ := h
    exact absurd hmisfit (hfits a ha)

theorem ofAttributes_of_fits (hknown : ∀ key ∈ given, k.recognizes key = true)
    (hfits : ∀ a ∈ k.attributes, ¬ Misfit given a) : ∃ b, ofAttributes k given = .ok b := by
  obtain ⟨key, hleast, -⟩ | ⟨-, ⟨a, hfirst, -⟩ | ⟨-, hok⟩⟩ := ofAttributes_cases k given
  · exact absurd hknown hleast.not_known
  · exact absurd hfirst.misfit (hfits a hfirst.mem)
  · exact hok

end

/-- A mapping with a key that the kind does not have is refused for the least one in the order of
bytes, whatever its values are. One that gives a value of the wrong shape is refused for the first
attribute that is given one. Any other builds a boundary, and the attributes of that are the
defaults overridden by the mapping. No mapping is refused for an attribute that is missing. -/
theorem ofAttributes_outcome (k : Kind) (given : Attributes) :
    ((∃ key ∈ given, k.recognizes key = false) →
        ∃ key, LeastUnknown k given key ∧ ofAttributes k given = .error (.unexpected k key)) ∧
      ((∀ key ∈ given, k.recognizes key = true) → (∃ a ∈ k.attributes, Misfit given a) →
        ∃ a, FirstMisfit k given a ∧ ofAttributes k given = .error (.invalid a.label a.shape)) ∧
      ((∀ key ∈ given, k.recognizes key = true) → (∀ a ∈ k.attributes, ¬ Misfit given a) →
        ∃ b, ofAttributes k given = .ok b ∧ b.kind = k ∧ ∀ key w, b.toAttributes[key]? = some w ↔
          ∃ a ∈ k.attributes, a.label = key ∧ Merged given a w) ∧
      ∀ k' path, ofAttributes k given ≠ .error (.unknown k' path) := by
  refine ⟨ofAttributes_of_unknown, ofAttributes_of_misfit, fun hknown hfits => ?_,
    fun k' path h => ?_⟩
  · obtain ⟨b, hb⟩ := ofAttributes_of_fits hknown hfits
    refine ⟨b, hb, ofAttributes_kind hb, fun key w => ?_⟩
    rw [getElem?_toAttributes, ofAttributes_kind hb]
    exact exists_congr fun a => and_congr_right fun ha =>
      and_congr_right fun _ => value?_of_ofAttributes hb ha
  · obtain ⟨_, -, hresult⟩ | ⟨-, ⟨_, -, hresult⟩ | ⟨-, _, hresult⟩⟩ :=
      ofAttributes_cases k given
    all_goals cases hresult.symm.trans h

theorem ofAttributes_outcome_mixed : ∃ unknown misfit fitting : Attributes,
    unknown = .ofList [("Zone", Value.none), ("Radius", Value.text "big"), ("Area", Value.none)] ∧
      ofAttributes .inlet unknown = .error (.unexpected .inlet "Area") ∧
    misfit = .ofList [("Pressure", Value.list [.none]), ("Normal", Value.number 1.0)] ∧
      ofAttributes .inlet misfit = .error (.invalid "Normal" .vector) ∧
    fitting = .ofList [("Centre", Value.list [.number 1.0, .number 2.0, .number 3.0])] ∧
      ∃ b, ofAttributes .inlet fitting = .ok b ∧
        b.toAttributes["Centre"]? = some (.vector ⟨1.0, 2.0, 3.0⟩) ∧
        b.toAttributes["Radius"]? = some (.number 0.5) := by
  let unknown : Attributes :=
    .ofList [("Zone", Value.none), ("Radius", Value.text "big"), ("Area", Value.none)]
  let misfit : Attributes :=
    .ofList [("Pressure", Value.list [.none]), ("Normal", Value.number 1.0)]
  let fitting : Attributes :=
    .ofList [("Centre", Value.list [.number 1.0, .number 2.0, .number 3.0])]
  refine ⟨unknown, misfit, fitting, rfl, ?_, rfl, ?_, rfl, ?_⟩
  · have hkeys (key : String) : key ∈ unknown ↔ key ∈ ["Zone", "Radius", "Area"] :=
      Std.ExtTreeMap.mem_ofList.trans List.contains_iff_mem
    obtain ⟨key, hleast, h⟩ :=
      (ofAttributes_outcome .inlet unknown).1 ⟨"Area", (hkeys _).mpr (by decide), rfl⟩
    have hle := hleast.least "Area" ((hkeys _).mpr (by decide)) rfl
    have hkey := (hkeys _).mp hleast.mem
    have hnot := hleast.unknown
    simp only [List.mem_cons, List.not_mem_nil, or_false] at hkey
    rcases hkey with rfl | rfl | rfl
    · exact absurd hle (by decide)
    · exact absurd hnot (by decide)
    · exact h
  · have hkeys (key : String) : key ∈ misfit ↔ key ∈ ["Pressure", "Normal"] :=
      Std.ExtTreeMap.mem_ofList.trans List.contains_iff_mem
    have hnormal : Misfit misfit .normal := ⟨.number 1.0, rfl, nofun⟩
    obtain ⟨a, ⟨before, after, has, ⟨v, hv, -⟩, hbefore⟩, h⟩ :=
      (ofAttributes_outcome .inlet misfit).2.1 (by simp only [hkeys]; decide)
        ⟨.normal, by decide, hnormal⟩
    cases a with
    | name | centre | radius => cases hv
    | normal => exact h
    | pressure =>
      have hmem : Attribute.normal ∈ before ++ .pressure :: after := has ▸ by decide
      rcases List.mem_append.mp hmem with hmem | _ | ⟨_, hafter⟩
      · exact absurd hnormal (hbefore .normal hmem)
      · have hlast : [Attribute.pressure, .normal].Sublist (.pressure :: after) :=
          (List.singleton_sublist.mpr hafter).cons_cons _
        have hall := hlast.trans (List.sublist_append_right before _)
        rw [← has] at hall
        exact absurd hall (by decide)
  · have hkeys (key : String) : key ∈ fitting ↔ key ∈ ["Centre"] :=
      Std.ExtTreeMap.mem_ofList.trans List.contains_iff_mem
    have hfits : ∀ a ∈ Kind.inlet.attributes, ¬ Misfit fitting a := by
      rintro a - ⟨v, hv, hnot⟩
      cases a with
      | name | normal | radius | pressure => cases hv
      | centre => cases hv; exact hnot _ (.triple (.inl rfl))
    obtain ⟨b, h, -, hb⟩ :=
      (ofAttributes_outcome .inlet fitting).2.2.1 (by simp only [hkeys]; decide) hfits
    refine ⟨b, h, (hb _ _).mpr ⟨.centre, by decide, rfl, .given rfl (.triple (.inl rfl))⟩,
      (hb _ _).mpr ⟨.radius, by decide, rfl, .default ?_⟩⟩
    rw [hkeys]
    decide

end SimSetup.Boundary
