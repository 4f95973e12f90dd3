import SimSetup.Boundary.Value

/-!
# Canonical values

Canonical form is reached in one step, and it neither makes nor fills a gap. A value that a pressure
can be is canonical and has no gap.
-/

namespace SimSetup.Boundary.Value

/-- A value is reached from its leaves: a list follows from its items. -/
@[elab_as_elim, induction_eliminator]
theorem inductionOn {P : Value → Prop} (none : P .none) (number : ∀ x, P (.number x))
    (text : ∀ s, P (.text s)) (vector : ∀ v, P (.vector v))
    (list : ∀ items, (∀ v ∈ items, P v) → P (.list items)) (v : Value) : P v :=
  Value.rec (motive_2 := fun items => ∀ v ∈ items, P v) none number text vector list
    (by simp) (fun _ _ hv hvs => by simpa using ⟨hv, hvs⟩) v

-- ---------------------------------------------------------------------------
-- Lists and the vectors they spell
-- ---------------------------------------------------------------------------

theorem canonical_list (items : List Value) :
    (list items).canonical = ofItems (items.map canonical) := by
  rw [canonical, canonicalItems_eq_map]

theorem hasGap_list (items : List Value) :
    (list items).hasGap = items.any fun v => v.isNone || v.hasGap := by
  rw [hasGap, anyGap_eq_any]

theorem triple?_eq_some :
    triple? items = some v ↔ items = [number v.x, number v.y, number v.z] := by
  constructor
  · intro h
    unfold triple? at h
    split at h
    · cases h; rfl
    · simp at h
  · rintro rfl; rfl

theorem ofItems_cases (items : List Value) :
    (∃ v, ofItems items = vector v ∧ items = [number v.x, number v.y, number v.z]) ∨
      (ofItems items = list items ∧ triple? items = .none) := by
  unfold ofItems
  cases h : triple? items with
  | some v => exact .inl ⟨v, rfl, triple?_eq_some.mp h⟩
  | none => exact .inr ⟨rfl, rfl⟩

theorem hasGap_ofItems (items : List Value) : (ofItems items).hasGap = (list items).hasGap := by
  rcases ofItems_cases items with ⟨v, he, rfl⟩ | ⟨he, -⟩
  · rw [he, hasGap_list]; rfl
  · rw [he]

theorem isNone_ofItems (items : List Value) : (ofItems items).isNone = false := by
  rcases ofItems_cases items with ⟨v, he, -⟩ | ⟨he, -⟩ <;> rw [he] <;> rfl

-- ---------------------------------------------------------------------------
-- Gaps
-- ---------------------------------------------------------------------------

/-- Some list in the value, at any depth, has an item that is nothing. -/
inductive Gapped : Value → Prop
  | item (h : none ∈ items) : Gapped (list items)
  | deeper (h : v ∈ items) (hv : Gapped v) : Gapped (list items)

theorem isNone_iff {v : Value} : v.isNone = true ↔ v = none := by
  cases v <;> simp [isNone]

theorem hasGap_iff {v : Value} : v.hasGap = true ↔ v.Gapped := by
  induction v with
  | none | number | text | vector => exact ⟨nofun, nofun⟩
  | list items ih =>
    simp only [hasGap_list, List.any_eq_true, Bool.or_eq_true]
    constructor
    · rintro ⟨v, hv, hnone | hgap⟩
      · exact .item (isNone_iff.mp hnone ▸ hv)
      · exact .deeper hv ((ih v hv).mp hgap)
    · rintro (h | ⟨hv, hgap⟩)
      · exact ⟨none, h, .inl rfl⟩
      · exact ⟨_, hv, .inr ((ih _ hv).mpr hgap)⟩

-- ---------------------------------------------------------------------------
-- Canonical form
-- ---------------------------------------------------------------------------

theorem canonical_canonical (v : Value) : v.canonical.canonical = v.canonical := by
  induction v with
  | none | number | text | vector => rfl
  | list items ih =>
    rw [canonical_list]
    rcases ofItems_cases (items.map canonical) with ⟨v, he, -⟩ | ⟨he, -⟩
    · rw [he]; rfl
    · have hmap : (items.map canonical).map canonical = items.map canonical := by
        rw [List.map_map]
        exact List.map_congr_left ih
      rw [he, canonical_list, hmap, he]

theorem isNone_canonical (v : Value) : v.canonical.isNone = v.isNone := by
  cases v with
  | list items => rw [canonical_list, isNone_ofItems]; rfl
  | _ => rfl

theorem hasGap_canonical (v : Value) : v.canonical.hasGap = v.hasGap := by
  induction v with
  | none | number | text | vector => rfl
  | list items ih =>
    rw [canonical_list, hasGap_ofItems, hasGap_list, hasGap_list, List.any_map]
    rw [Bool.eq_iff_iff, List.any_eq_true, List.any_eq_true]
    refine exists_congr fun v => and_congr_right fun hv => ?_
    simp [isNone_canonical, ih v hv]

structure Storable (v : Value) : Prop where
  canonical : v.canonical = v
  noGap : v.hasGap = false

theorem Storable.not_gapped {v : Value} (h : Storable v) : ¬ v.Gapped := by
  rw [← hasGap_iff, h.noGap]
  exact Bool.false_ne_true

theorem storable_canonical {v : Value} (h : v.hasGap = false) : Storable v.canonical :=
  ⟨canonical_canonical v, by rw [hasGap_canonical, h]⟩

end SimSetup.Boundary.Value
