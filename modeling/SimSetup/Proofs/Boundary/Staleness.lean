import SimSetup.Proofs.Boundary.Reachable

/-!
# What an edit makes stale

An edit that is accepted reports the derived properties that may have changed. The report is sound,
since the plane reads the geometry only and the equation the pressure only, and it is exact, since
the dependencies are those of the kind and cover each path that can be edited.
-/

namespace SimSetup.Boundary

/-- The derived properties that read an attribute or its components. -/
def Attribute.derived : Attribute → List String
  | name => []
  | centre | normal | radius => [planeProperty]
  | pressure => [equationProperty]

-- ---------------------------------------------------------------------------
-- The report
-- ---------------------------------------------------------------------------

theorem dependents_label {k : Kind} (ha : a ∈ k.attributes) :
    k.dependencies.dependents a.label = a.derived := by
  revert ha
  cases k <;> cases a <;> decide

theorem dependents_component {a : Attribute} {k : Kind}
    (ha : a = .centre ∨ a = .normal ∨ a = .pressure)
    (hk : a = .pressure → k.hasPressure = true) (axis : Axis) :
    k.dependencies.dependents (a.label ++ "." ++ axis.label) = a.derived := by
  obtain rfl | rfl | rfl := ha
  · cases k <;> cases axis <;> decide
  · cases k <;> cases axis <;> decide
  · have hk := hk rfl
    revert hk
    cases k <;> cases axis <;> decide

/-- Only three attributes have components, and the pressure only where there is one. -/
theorem WellFormed.vector?_cases (h : WellFormed b) (hv : b.vector? a = some vec) :
    (a = .centre ∨ a = .normal ∨ a = .pressure) ∧ (a = .pressure → b.kind.hasPressure = true) := by
  cases a with
  | centre | normal => simp
  | pressure =>
    refine ⟨by simp, fun _ => ?_⟩
    obtain ⟨p, hp, -⟩ := Option.bind_eq_some_iff.mp hv
    rw [← h.hasPressure, hp]
    rfl
  | name | radius => simp [vector?] at hv

theorem WellFormed.dependents (h : WellFormed b) (he : Edits b path v a w) :
    b.dependencies.dependents path = a.derived := by
  rw [h.dependencies]
  cases he with
  | whole ha => exact dependents_label ha
  | component axis hv _ =>
    obtain ⟨ha, hk⟩ := h.vector?_cases hv
    exact dependents_component ha hk axis

theorem Edits.splitPath_fst (he : Edits b path v a w) : (splitPath path).1 = a.label := by
  cases he with
  | whole => cases a <;> decide
  | component axis => cases a <;> cases axis <;> decide

-- ---------------------------------------------------------------------------
-- What is read
-- ---------------------------------------------------------------------------

theorem Assigns.plane (h : Assigns b a v b') (ha : planeProperty ∉ a.derived) :
    b'.plane = b.plane := by
  cases h with
  | unnamed | named | pressure => rfl
  | centre | normal | radius => simp [Attribute.derived] at ha

theorem Assigns.pressureEquation (h : Assigns b a v b') (ha : equationProperty ∉ a.derived) :
    b'.pressureEquation = b.pressureEquation := by
  cases h with
  | unnamed | named | centre | normal | radius => rfl
  | pressure => simp [Attribute.derived] at ha

theorem set_report (hb : Reachable b) (h : (set path v).run b = (.ok affected, b')) :
    (b'.plane ≠ b.plane → "Plane" ∈ affected) ∧
      (b'.pressureEquation ≠ b.pressureEquation → "PressureEquation" ∈ affected) ∧
      ((splitPath path).1 ∈ ["Centre", "Normal", "Radius"] → affected = ["Plane"]) ∧
      ((splitPath path).1 = "Pressure" → affected = ["PressureEquation"]) ∧
      ((splitPath path).1 = "Name" → affected = []) := by
  rcases run_set path v b with ⟨a, w, b'', he, ha, hrun⟩ | ⟨e, hrun⟩
  · rw [hrun, hb.wellFormed.dependents he] at h
    obtain ⟨⟨⟩, ⟨⟩⟩ := h
    rw [he.splitPath_fst]
    refine ⟨fun hne => ?_, fun hne => ?_, ?_⟩
    · exact Decidable.byContradiction fun hn => hne (ha.plane hn)
    · exact Decidable.byContradiction fun hn => hne (ha.pressureEquation hn)
    · cases a <;> decide
  · rw [hrun] at h
    cases h

theorem set_report_renamed_inlet :
    ∃ b b' affected, (set "Centre.x" (.number 1.0)).run b = (.ok affected, b') ∧
      b.name = some "in" ∧ affected = ["Plane"] := by
  let b := (new .inlet).withName "in"
  have hrun : (set "Centre.x" (.number 1.0)).run b =
      (.ok ["Plane"], b.withCentre ⟨1.0, 0.0, 0.0⟩) := rfl
  have hb : Reachable b := .change (.name "in") (.new .inlet)
  exact ⟨b, _, _, hrun, rfl, (set_report hb hrun).2.2.1 (by decide)⟩

end SimSetup.Boundary
