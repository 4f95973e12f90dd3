import SimSetup.Proofs.Boundary.Canonical
import SimSetup.Proofs.Boundary.Edits

/-!
# Boundaries that can come about

A boundary is made new or from a mapping and then changed, any number of times. All that come about
in this way are well formed: the pressure is there exactly when the kind has one, it is a value that
a pressure can be, and the dependencies are still those of the kind.
-/

namespace SimSetup.Boundary

/-- One change to a boundary; an edit may be refused. -/
inductive Change
  | set (path : String) (v : Value)
  | name (s : String)
  | centre (c : Vec Float)
  | normal (n : Vec Float)
  | radius (r : Float)
  | pressure (v : Value)

def Change.apply (b : Boundary) : Change → Boundary
  | set path v => ((Boundary.set path v).run b).2
  | name s => b.withName s
  | centre c => b.withCentre c
  | normal n => b.withNormal n
  | radius r => b.withRadius r
  | pressure v => b.withPressure v

inductive Reachable : Boundary → Prop
  | new (k : Kind) : Reachable (new k)
  | ofAttributes (h : ofAttributes k given = .ok b) : Reachable b
  | change (c : Change) (h : Reachable b) : Reachable (c.apply b)

structure WellFormed (b : Boundary) : Prop where
  hasPressure : b.pressure.isSome = b.kind.hasPressure
  storable : ∀ v, b.pressure = some v → v.Storable
  dependencies : b.dependencies = b.kind.dependencies

-- ---------------------------------------------------------------------------
-- Steps
-- ---------------------------------------------------------------------------

theorem wellFormed_new (k : Kind) : (new k).WellFormed where
  hasPressure := by cases k <;> rfl
  storable := by
    rintro v hv
    have hv : v = Attribute.pressure.default := by
      cases k <;> simp [new, Kind.hasPressure] at hv <;> exact hv.symm
    rw [hv]
    exact ⟨rfl, rfl⟩
  dependencies := rfl

theorem WellFormed.withStored (h : WellFormed b) (hk : b.kind.hasPressure = true)
    (hv : v.Storable) : WellFormed { b with pressure := some v } where
  hasPressure := hk.symm
  storable := by rintro w ⟨⟩; exact hv
  dependencies := h.dependencies

theorem WellFormed.assigns (h : WellFormed b) (ha : Assigns b a v b') : WellFormed b' := by
  cases ha with
  | unnamed | named | centre | normal | radius => exact ⟨h.hasPressure, h.storable, h.dependencies⟩
  | pressure hk hg => exact h.withStored hk (Value.storable_canonical hg)

theorem WellFormed.set (h : WellFormed b) (path : String) (v : Value) :
    WellFormed ((set path v).run b).2 := by
  rcases run_set path v b with ⟨a, w, b', -, ha, hb'⟩ | ⟨e, he⟩
  · rw [hb']; exact h.assigns ha
  · rw [he]; exact h

theorem withPressure_cases (b : Boundary) (v : Value) :
    (b.kind.hasPressure = true ∧ v.hasGap = false ∧
        b.withPressure v = { b with pressure := some v.canonical }) ∨
      ((b.kind.hasPressure = false ∨ v.hasGap = true) ∧ b.withPressure v = b) := by
  cases hk : b.kind.hasPressure <;> cases hg : v.hasGap <;> simp [withPressure, pressureOf, hk, hg]

theorem WellFormed.change (h : WellFormed b) (c : Change) : WellFormed (c.apply b) := by
  cases c with
  | set path v => exact h.set path v
  | name | centre | normal | radius => exact ⟨h.hasPressure, h.storable, h.dependencies⟩
  | pressure v =>
    show WellFormed (b.withPressure v)
    rcases withPressure_cases b v with ⟨hk, hg, hb⟩ | ⟨-, hb⟩
    · exact hb ▸ h.withStored hk (Value.storable_canonical hg)
    · exact hb.symm ▸ h

-- ---------------------------------------------------------------------------
-- Runs
-- ---------------------------------------------------------------------------

theorem WellFormed.assignAll (h : WellFormed b) (given : Attributes) (as : List Attribute) :
    WellFormed ((assignAll given as).run b).2 := by
  induction as generalizing b with
  | nil => exact h
  | cons a rest ih =>
    rw [Boundary.assignAll, run_bind]
    rcases run_assign a (given.getD a.label a.default) b with ⟨b', hb', ha⟩ | ⟨e, he⟩
    · rw [hb']; exact ih (h.assigns ha)
    · rw [he]; exact h

theorem ofAttributes_eq_ok : ofAttributes k given = .ok b ↔
    given.keys.find? (!k.recognizes ·) = none ∧
      (assignAll given k.attributes).run (new k) = (.ok (), b) := by
  unfold ofAttributes
  cases given.keys.find? (!k.recognizes ·) with
  | some name => simp
  | none =>
    rcases (assignAll given k.attributes).run (new k) with ⟨_ | ⟨⟩, _⟩
    · exact ⟨fun h => (nomatch h), fun ⟨_, h⟩ => (nomatch h)⟩
    · constructor
      · rintro ⟨⟩; exact ⟨rfl, rfl⟩
      · rintro ⟨-, ⟨⟩⟩; rfl

theorem Reachable.wellFormed (h : Reachable b) : WellFormed b := by
  induction h with
  | new k => exact wellFormed_new k
  | @ofAttributes k given b h =>
    have hrun := (wellFormed_new k).assignAll given k.attributes
    rwa [(ofAttributes_eq_ok.mp h).2] at hrun
  | change c _ ih => exact ih.change c

end SimSetup.Boundary
