import SimSetup.Proofs.Boundary.Paths

/-!
# Reading after writing

Places obey the laws of a lens. What an accepted edit writes is what is read there afterwards, what
is read can be written back, and what lies apart from the path reads as before; so edits whose paths
lie apart can change places. A component takes the whole vector with it, but no other component.
-/

namespace SimSetup.Boundary

/-- Neither path is the other one or lies below it. -/
structure Apart (p q : String) : Prop where
  ne : p ≠ q
  not_below : ∀ rest, q ≠ p ++ "." ++ rest
  not_above : ∀ rest, p ≠ q ++ "." ++ rest

namespace Place

def base : Place → Attribute
  | whole a | component a _ => a

def written (b : Boundary) : Place → Value → Option Value
  | whole a, v => a.stored v
  | component a axis, .number x => (b.vector? a).map fun vec => .vector (vec.set axis x)
  | component _ _, _ => none

end Place

/-- What is read at a path that was given `v`: the vector that a centre or a normal is given, a
pressure in canonical form, and `v` itself anywhere else. -/
def readBack (path : String) (v : Value) : Option Value :=
  if path ∈ ["Centre", "Normal"] then v.vector?.map .vector
  else if path = "Pressure" then some v.canonical
  else some v

/-- What an edit that is accepted does. -/
structure Written (b : Boundary) (path : String) (v : Value) (b' : Boundary) : Prop where
  reads : ∃ w, readBack path v = some w ∧ b'.get? path = some w
  apart : ∀ q, Apart path q → b'.get? q = b.get? q
  kind : b'.kind = b.kind
  dependencies : b'.dependencies = b.dependencies

def setBoth (p : String) (v : Value) (q : String) (w : Value) :
    Edit (List String × List String) := do
  let first ← set p v
  let second ← set q w
  return (first, second)

-- ---------------------------------------------------------------------------
-- Places apart
-- ---------------------------------------------------------------------------

theorem Apart.symm (h : Apart p q) : Apart q p := ⟨h.ne.symm, h.not_above, h.not_below⟩

/-- Places are apart if they belong to different attributes or are different components. -/
theorem Apart.cases {p q : Place} (h : Apart p.path q.path) : p.base ≠ q.base ∨
    ∃ a i j, p = .component a i ∧ q = .component a j ∧ i ≠ j := by
  rw [or_iff_not_imp_left, not_not]
  intro heq
  cases p with
  | whole a =>
    cases q with
    | whole c => exact absurd (congrArg Attribute.label heq) h.ne
    | component c j =>
      obtain rfl : a = c := heq
      exact absurd rfl (h.not_below j.label)
  | component a i =>
    cases q with
    | whole c =>
      obtain rfl : a = c := heq
      exact absurd rfl (h.not_above i.label)
    | component c j =>
      obtain rfl : a = c := heq
      exact ⟨a, i, j, rfl, rfl, fun hij => h.ne (hij ▸ rfl)⟩

theorem Vec.set_comm (vec : Vec Float) (h : i ≠ j) (x y : Float) :
    (vec.set i x).set j y = (vec.set j y).set i x := by
  cases i <;> cases j <;> first | rfl | contradiction

-- ---------------------------------------------------------------------------
-- What a place takes
-- ---------------------------------------------------------------------------

theorem Writes.kind (h : Writes b p v b') : b'.kind = b.kind := by
  cases h with
  | whole _ h | component _ h => exact h.kind

theorem Writes.dependencies (h : Writes b p v b') : b'.dependencies = b.dependencies := by
  cases h with
  | whole _ h | component _ h => exact h.dependencies

theorem Writes.wellFormed (h : Writes b p v b') (hb : WellFormed b) : WellFormed b' := by
  cases h with
  | whole _ h | component _ h => exact hb.assigns h

theorem Writes.value?_base (h : Writes b p v b') : b'.value? p.base = p.written b v := by
  cases h with
  | whole _ h =>
    obtain ⟨w, hstored, hvalue⟩ := h.stored
    exact hvalue.trans hstored.symm
  | component hvec h =>
    obtain ⟨w, hstored, hvalue⟩ := h.stored
    simp [Place.base, Place.written, hvec, hvalue, ← hstored, stored_vector hvec]

theorem Writes.value?_of_ne (h : Writes b p v b') (hne : other ≠ p.base) :
    b'.value? other = b.value? other := by
  cases h with
  | whole _ h | component _ h => exact Assigns.value?_of_ne h hne

theorem Writes.vector?_of_ne (h : Writes b p v b') (hne : other ≠ p.base) :
    b'.vector? other = b.vector? other := by
  rw [vector?_eq, vector?_eq, h.value?_of_ne hne]

theorem Writes.vector?_component (h : Writes b (.component a axis) v b') :
    ∃ vec x, v = .number x ∧ b.vector? a = some vec ∧ b'.vector? a = some (vec.set axis x) := by
  have hvalue := h.value?_base
  cases h with
  | @component _ vec _ x _ hvec h =>
    refine ⟨vec, x, rfl, hvec, ?_⟩
    simp only [Place.base, Place.written, hvec, Option.map_some] at hvalue
    simp [vector?_eq, hvalue, Value.vector?]

theorem Writes.value?_apart (h : Writes b p v b') {q : Place} (hapart : Apart p.path q.path) :
    q.value? b' = q.value? b := by
  rcases hapart.cases with hne | ⟨a, i, j, rfl, rfl, hij⟩
  · cases q with
    | whole c => exact h.value?_of_ne hne.symm
    | component c j =>
      have hvec : b'.vector? c = b.vector? c := h.vector?_of_ne hne.symm
      simp only [Place.value?, hvec]
  · obtain ⟨vec, x, -, hvec, hvec'⟩ := h.vector?_component
    simp [Place.value?, hvec, hvec', Vec.get_set_of_ne _ hij]

theorem Writes.get?_apart (h : Writes b p v b') (hapart : Apart p.path q) :
    b'.get? q = b.get? q := by
  rw [get?_eq, get?_eq]
  cases hq : Place.ofPath? q with
  | none => rfl
  | some place =>
    rw [← Place.path_of_ofPath? hq] at hapart
    exact h.value?_apart hapart

theorem Place.written_congr (p : Place) (v : Value) (h : b'.vector? p.base = b.vector? p.base) :
    p.written b' v = p.written b v := by
  cases p with
  | whole a => rfl
  | component a axis =>
    cases v with
    | number x => simp only [written, show b'.vector? a = b.vector? a from h]
    | none | text | vector | list => rfl

-- ---------------------------------------------------------------------------
-- Two edits
-- ---------------------------------------------------------------------------

/-- Places apart can be written in either order. -/
theorem Writes.diamond (hb : WellFormed b) (hp : Writes b p v b₁) (hq : Writes b q w b₂)
    (hapart : Apart p.path q.path) : ∃ b', Writes b₁ q w b' ∧ Writes b₂ p v b' := by
  obtain ⟨_, hstoredp, -⟩ := hp.value?
  obtain ⟨_, hstoredq, -⟩ := hq.value?
  have hsomeq : (q.value? b₁).isSome := hp.value?_apart hapart ▸ hq.isSome hb
  have hsomep : (p.value? b₂).isSome := hq.value?_apart hapart.symm ▸ hp.isSome hb
  obtain ⟨c, hc⟩ := exists_writes (hp.wellFormed hb) hsomeq hstoredq
  obtain ⟨d, hd⟩ := exists_writes (hq.wellFormed hb) hsomep hstoredp
  refine ⟨c, hc, ?_⟩
  suffices hcd : c = d from hcd ▸ hd
  refine ext_value? ?_ ?_ fun a => ?_
  · rw [hc.kind, hp.kind, hd.kind, hq.kind]
  · rw [hc.dependencies, hp.dependencies, hd.dependencies, hq.dependencies]
  rcases hapart.cases with hne | ⟨a', i, j, rfl, rfl, hij⟩
  · -- each attribute is as the place that belongs to it leaves it
    by_cases hap : a = p.base
    · subst hap
      rw [hc.value?_of_ne hne, hp.value?_base, hd.value?_base]
      exact (p.written_congr v (hq.vector?_of_ne hne)).symm
    · rw [hd.value?_of_ne hap]
      by_cases haq : a = q.base
      · subst haq
        rw [hc.value?_base, hq.value?_base]
        exact q.written_congr w (hp.vector?_of_ne hne.symm)
      · rw [hc.value?_of_ne haq, hp.value?_of_ne hap, hq.value?_of_ne haq]
  · by_cases ha : a = a'
    · subst ha
      obtain ⟨vec, x, rfl, hvec, hvec₁⟩ := hp.vector?_component
      obtain ⟨vec', y, rfl, hvec', hvec₂⟩ := hq.vector?_component
      cases hvec.symm.trans hvec'
      refine hc.value?_base.trans (Eq.trans ?_ hd.value?_base.symm)
      simp [Place.written, hvec₁, hvec₂, Vec.set_comm vec hij]
    · rw [hc.value?_of_ne ha, hp.value?_of_ne ha, hd.value?_of_ne ha, hq.value?_of_ne ha]

theorem Writes.before (hb : WellFormed b) (hp : Writes b p v b₁) (hq : Writes b₁ q w b')
    (hapart : Apart p.path q.path) : ∃ b₂, Writes b q w b₂ := by
  obtain ⟨_, hstored, -⟩ := hq.value?
  have hsome : (q.value? b).isSome := hp.value?_apart hapart ▸ hq.isSome (hp.wellFormed hb)
  exact exists_writes hb hsome hstored

theorem run_setBoth : (setBoth p v q w).run b = (.ok (r, s), b') ↔
    ∃ b₁, (set p v).run b = (.ok r, b₁) ∧ (set q w).run b₁ = (.ok s, b') := by
  constructor
  · intro h
    obtain ⟨_, -, ⟨⟩⟩ | ⟨r, b₁, hp, h⟩ := bind_cases h
    obtain ⟨_, -, ⟨⟩⟩ | ⟨s, b', hq, h⟩ := bind_cases h
    cases h
    exact ⟨b₁, hp, hq⟩
  · rintro ⟨b₁, hp, hq⟩
    simp only [setBoth, run_bind, hp, hq, run_pure]

section
variable {b : Boundary} (hb : WellFormed b) {p q : String} (hapart : Apart p q)
include hb hapart

theorem setBoth_of_set (hp : (set p v).run b = (.ok r, b₁)) (hq : (set q w).run b = (.ok s, b₂)) :
    ∃ b', (setBoth p v q w).run b = (.ok (r, s), b') ∧
      (setBoth q w p v).run b = (.ok (s, r), b') := by
  obtain ⟨rfl, p, rfl, hwritesp⟩ := writes_of_set hb hp
  obtain ⟨rfl, q, rfl, hwritesq⟩ := writes_of_set hb hq
  obtain ⟨b', hq', hp'⟩ := hwritesp.diamond hb hwritesq hapart
  refine ⟨b', run_setBoth.mpr ⟨b₁, hp, ?_⟩, run_setBoth.mpr ⟨b₂, hq, ?_⟩⟩
  · rw [hq'.run, hwritesp.dependencies]
  · rw [hp'.run, hwritesq.dependencies]

theorem setBoth_swap (h : (setBoth p v q w).run b = (.ok (r, s), b')) :
    (setBoth q w p v).run b = (.ok (s, r), b') := by
  obtain ⟨b₁, hp, hq⟩ := run_setBoth.mp h
  obtain ⟨-, p, rfl, hwritesp⟩ := writes_of_set hb hp
  obtain ⟨rfl, q, rfl, hwritesq⟩ := writes_of_set (hwritesp.wellFormed hb) hq
  obtain ⟨b₂, hbefore⟩ := hwritesp.before hb hwritesq hapart
  obtain ⟨b'', hboth, hswap⟩ := setBoth_of_set hb hapart hp hbefore.run
  rw [hwritesp.dependencies] at h
  rw [h] at hboth
  cases hboth
  rw [hwritesp.dependencies]
  exact hswap

end

-- ---------------------------------------------------------------------------
-- What can be read and written
-- ---------------------------------------------------------------------------

theorem WellFormed.stored_value {p : Place} (hb : WellFormed b) (h : p.value? b = some w) :
    p.stored w = some w := by
  cases p with
  | whole a =>
    have hstorable := hb.storable_value h
    cases a with
    | name =>
      cases h
      cases b.name <;> rfl
    | centre | normal | radius => cases h; rfl
    | pressure =>
      show (if w.hasGap then none else some w.canonical) = some w
      simp [hstorable.noGap, hstorable.canonical]
  | component a axis =>
    obtain ⟨vec, -, rfl⟩ := Option.map_eq_some_iff.mp h
    rfl

theorem Place.readBack_path {p : Place} (h : p.stored v = some w) :
    readBack p.path v = some w := by
  cases p with
  | whole a =>
    cases a with
    | centre | normal => exact h
    | pressure =>
      show some v.canonical = some w
      simp only [stored, Attribute.stored] at h
      split at h
      · cases h
      · exact h
    | name => cases v <;> cases h <;> rfl
    | radius =>
      obtain ⟨x, hx, rfl⟩ := Option.map_eq_some_iff.mp h
      cases v <;> cases hx
      rfl
  | component a axis =>
    have hnot : (component a axis).path ∉ ["Centre", "Normal", "Pressure"] := by
      cases a <;> cases axis <;> decide
    obtain ⟨x, hx, rfl⟩ := Option.map_eq_some_iff.mp h
    cases v <;> cases hx
    simp only [List.mem_cons, not_or] at hnot
    simp [readBack, hnot]

theorem Writes.written (h : Writes b p v b') : Written b p.path v b' where
  reads := by
    obtain ⟨w, hstored, hvalue⟩ := h.value?
    exact ⟨w, Place.readBack_path hstored, by rw [get?_path, hvalue]⟩
  apart q hq := h.get?_apart hq
  kind := h.kind
  dependencies := h.dependencies

/-- An accepted edit is read where it was made and nowhere apart from there, edits apart from each
other can change places, and what can be read is what can be set. -/
theorem set_laws (hb : Reachable b) :
    (∀ path v affected b', (set path v).run b = (.ok affected, b') → Written b path v b') ∧
      (∀ p v r q w s, Apart p q →
        (∀ b₁ b₂, (set p v).run b = (.ok r, b₁) → (set q w).run b = (.ok s, b₂) →
          ∃ b', (setBoth p v q w).run b = (.ok (r, s), b')) ∧
        ∀ b', (setBoth p v q w).run b = (.ok (r, s), b') ↔
          (setBoth q w p v).run b = (.ok (s, r), b')) ∧
      ∀ path, (b.get? path).isSome ↔ ∃ v affected b', (set path v).run b = (.ok affected, b') := by
  have hwell := hb.wellFormed
  refine ⟨fun path v affected b' h => ?_, fun p v r q w s hapart => ⟨fun b₁ b₂ hp hq => ?_,
    fun b' => ?_⟩, fun path => ?_⟩
  · obtain ⟨-, p, rfl, hwrites⟩ := writes_of_set hwell h
    exact hwrites.written
  · obtain ⟨b', hboth, -⟩ := setBoth_of_set hwell hapart hp hq
    exact ⟨b', hboth⟩
  · exact ⟨setBoth_swap hwell hapart, setBoth_swap hwell hapart.symm⟩
  · constructor
    · intro h
      obtain ⟨w, hw⟩ := Option.isSome_iff_exists.mp h
      obtain ⟨p, rfl, hvalue⟩ := exists_place hw
      obtain ⟨b', hwrites⟩ := exists_writes hwell (by simp [hvalue]) (hwell.stored_value hvalue)
      exact ⟨w, _, b', hwrites.run⟩
    · rintro ⟨v, affected, b', h⟩
      obtain ⟨-, p, rfl, hwrites⟩ := writes_of_set hwell h
      rw [get?_path]
      exact hwrites.isSome hwell

theorem set_laws_pressure : ∃ b₁ b' : Boundary,
    (set "Pressure.x" (.number 1.0)).run (new .inlet) = (.ok ["PressureEquation"], b₁) ∧
      b₁.get? "Pressure.x" = some (.number 1.0) ∧
      (setBoth "Pressure.x" (.number 1.0) "Pressure.z" (.number 45.0)).run (new .inlet) =
        (.ok (["PressureEquation"], ["PressureEquation"]), b') ∧
      (setBoth "Pressure.z" (.number 45.0) "Pressure.x" (.number 1.0)).run (new .inlet) =
        (.ok (["PressureEquation"], ["PressureEquation"]), b') := by
  have hapart : Apart "Pressure.x" "Pressure.z" := by
    constructor
    · decide
    all_goals
      intro rest heq
      have hchars := congrArg String.toList heq
      simp at hchars
  obtain ⟨hwritten, hboth, -⟩ := set_laws (.new .inlet)
  obtain ⟨hrun, hswap⟩ := hboth "Pressure.x" (.number 1.0) ["PressureEquation"] "Pressure.z"
    (.number 45.0) ["PressureEquation"] hapart
  obtain ⟨b', h⟩ := hrun _ _ rfl rfl
  obtain ⟨b₁, hset, -⟩ := run_setBoth.mp h
  obtain ⟨_, ⟨⟩, hread⟩ := (hwritten _ _ _ _ hset).reads
  exact ⟨b₁, b', hset, hread, h, (hswap b').mp h⟩

end SimSetup.Boundary
