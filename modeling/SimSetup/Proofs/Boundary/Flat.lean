import SimSetup.Proofs.Boundary.Canonical

/-!
# Flat values

A flat value has every vector written as the list of its three numbers, at every depth. Two values
have one canonical form just when they have one flat form, so canonical form identifies vectors with
the lists that spell them and nothing else.
-/

namespace SimSetup.Boundary.Value

mutual

/-- The value with every vector replaced by the list of its three numbers. -/
def flat : Value → Value
  | vector v => list [number v.x, number v.y, number v.z]
  | list items => list (flatItems items)
  | v => v

def flatItems : List Value → List Value
  | [] => []
  | v :: vs => v.flat :: flatItems vs

end

/-- The value itself, its items, their items and so on. -/
inductive HasPart : Value → Value → Prop
  | self : HasPart v v
  | item (hv : v ∈ items) (h : HasPart v part) : HasPart (list items) part

theorem flatItems_eq_map (items : List Value) : flatItems items = items.map flat := by
  induction items with
  | nil => rfl
  | cons v vs ih => rw [flatItems, ih, List.map_cons]

theorem flat_list (items : List Value) : (list items).flat = list (items.map flat) := by
  rw [flat, flatItems_eq_map]

-- ---------------------------------------------------------------------------
-- Flat and canonical form
-- ---------------------------------------------------------------------------

theorem flat_canonical (v : Value) : v.canonical.flat = v.flat := by
  induction v with
  | none | number | text | vector => rfl
  | list items ih =>
    have hitems : (items.map canonical).map flat = items.map flat := by
      rw [List.map_map]
      exact List.map_congr_left ih
    rw [canonical_list, flat_list, ← hitems]
    rcases ofItems_cases (items.map canonical) with ⟨v, he, hspelt⟩ | ⟨he, -⟩
    · rw [he, hspelt]; rfl
    · rw [he, flat_list]

theorem canonical_flat (v : Value) : v.flat.canonical = v.canonical := by
  induction v with
  | none | number | text | vector => rfl
  | list items ih =>
    have hitems : (items.map flat).map canonical = items.map canonical := by
      rw [List.map_map]
      exact List.map_congr_left ih
    rw [flat_list, canonical_list, hitems, canonical_list]

theorem canonical_eq_iff {v w : Value} : v.canonical = w.canonical ↔ v.flat = w.flat := by
  constructor
  · intro h
    rw [← flat_canonical v, h, flat_canonical]
  · intro h
    rw [← canonical_flat v, h, canonical_flat]

-- ---------------------------------------------------------------------------
-- Vectors
-- ---------------------------------------------------------------------------

theorem flat_eq_number {v : Value} : v.flat = number x ↔ v = number x := by
  cases v <;> simp [flat]

theorem vector?_eq_some {v : Value} :
    v.vector? = some u ↔ v.flat = list [number u.x, number u.y, number u.z] := by
  cases v with
  | none | number | text => simp [vector?, flat]
  | vector v =>
    obtain ⟨x, y, z⟩ := v
    obtain ⟨x', y', z'⟩ := u
    simp [vector?, flat]
  | list items =>
    rw [vector?, triple?_eq_some, flat_list, list.injEq]
    constructor
    · rintro rfl; rfl
    · intro h
      simpa [List.map_eq_cons_iff, flat_eq_number] using h

theorem vector?_canonical (v : Value) : v.canonical.vector? = v.vector? := by
  ext u
  rw [vector?_eq_some, flat_canonical, vector?_eq_some]

-- ---------------------------------------------------------------------------
-- Parts
-- ---------------------------------------------------------------------------

theorem HasPart.canonical {v : Value} (h : v.HasPart part) (hv : v.canonical = v) :
    part.canonical = part := by
  induction h with
  | self => exact hv
  | @item items v part hmem _ ih =>
    refine ih ?_
    rw [canonical_list] at hv
    rcases ofItems_cases (items.map Value.canonical) with ⟨_, he, -⟩ | ⟨he, -⟩
    · cases he.symm.trans hv
    · have hitems := list.inj (he.symm.trans hv)
      exact List.map_inj_left.mp (hitems.trans (List.map_id items).symm) v hmem

/-- The values in canonical form are those without a list of three numbers. -/
theorem canonical_eq_self_iff {v : Value} :
    v.canonical = v ↔ ∀ x y z, ¬ v.HasPart (list [number x, number y, number z]) := by
  constructor
  · intro h x y z hpart
    have hvector : (list [number x, number y, number z]).canonical = vector ⟨x, y, z⟩ := rfl
    cases hvector.symm.trans (hpart.canonical h)
  · intro h
    induction v with
    | none | number | text | vector => rfl
    | list items ih =>
      have hitems : items.map canonical = items :=
        (List.map_congr_left fun v hv => ih v hv fun x y z hpart => h x y z (.item hv hpart)).trans
          (List.map_id items)
      rw [canonical_list, hitems]
      rcases ofItems_cases items with ⟨v, -, rfl⟩ | ⟨he, -⟩
      · exact absurd .self (h v.x v.y v.z)
      · exact he

/-- Canonical form is a normal form for values that are the same when flat. It has no list of three
numbers left, is read as the same vector, and has a gap just when the value has one. Numbers are
equal here if their bits are, so a NaN equals itself and the two zeros differ. -/
theorem canonical_normal_form (v w : Value) :
    (v.canonical = w.canonical ↔ v.flat = w.flat) ∧ v.canonical.canonical = v.canonical ∧
      (∀ x y z, ¬ v.canonical.HasPart (list [number x, number y, number z])) ∧
      v.canonical.vector? = v.vector? ∧ v.canonical.hasGap = v.hasGap := by
  have hidempotent := canonical_canonical v
  exact ⟨canonical_eq_iff, hidempotent, canonical_eq_self_iff.mp hidempotent, vector?_canonical v,
    hasGap_canonical v⟩

end SimSetup.Boundary.Value
