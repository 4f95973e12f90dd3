import SimSetup.Proofs.Geometry.Turning

/-!
# Patches that are moved and turned

However often a patch is moved and turned, it stays the parallelogram it was, and what it stores
beside its corners agrees with them. A turn by an angle that is computed as negligible would break
this: the corners stay in place and the normal does not.
-/

namespace SimSetup

noncomputable def Vec.angle (a b : Vec ℝ) : ℝ :=
  Scalar.toDegrees (Real.arccos (a.dot b / (a.length * b.length)))

section
attribute [local instance] atLeastTwo_two

/-- A normal `n` may be turned to `target` if that is no direction, or the same, or the angle is
large enough to turn by. -/
def Vec.TurnsTo (n target : Vec ℝ) : Prop :=
  target ≠ Vec.zero → n.angle target = 0 ∨ 2 ^ (-52 : ℤ) ≤ n.angle target

end

theorem Vec.turnsTo_of_dot_nonpos {n t : Vec ℝ} (h : n.dot t ≤ 0) : n.TurnsTo t := by
  intro _
  have hratio : n.dot t / (n.length * t.length) ≤ 0 :=
    div_nonpos_of_nonpos_of_nonneg h (mul_nonneg (Real.sqrt_nonneg _) (Real.sqrt_nonneg _))
  have hangle := not_lt.mp (mt Real.arccos_lt_pi_div_two.mp (not_lt.mpr hratio))
  have hninety : Real.pi / 2 * (180 / Real.pi) = 90 := by
    have hpi := Real.pi_ne_zero
    field_simp
    norm_num
  refine .inr ?_
  calc (2 : ℝ) ^ (-52 : ℤ) ≤ 90 := by norm_num
    _ = Real.pi / 2 * (180 / Real.pi) := hninety.symm
    _ ≤ n.angle t := mul_le_mul_of_nonneg_right hangle (by positivity)

namespace Patch

structure InSync (p : Patch ℝ) : Prop where
  center : p.center = p.origin + (p.edge1 + p.edge2).scale (1 / 2)
  normal : p.normal.dot p.normal = 1
  cross : p.edge1.cross p.edge2 = p.normal.scale p.area

structure Congruent (p q : Patch ℝ) : Prop where
  edge1 : p.edge1.dot p.edge1 = q.edge1.dot q.edge1
  edge2 : p.edge2.dot p.edge2 = q.edge2.dot q.edge2
  angle : p.edge1.dot p.edge2 = q.edge1.dot q.edge2

theorem Congruent.trans {p q r : Patch ℝ} (h : p.Congruent q) (h' : q.Congruent r) :
    p.Congruent r :=
  ⟨h.edge1.trans h'.edge1, h.edge2.trans h'.edge2, h.angle.trans h'.angle⟩

theorem InSync.ofCorners (o a b : Vec ℝ) : InSync (ofCorners o a b) where
  center := rfl
  normal := by
    change (((a - o).cross (b - o)).normalized?.getD Vec.unitZ).dot
      (((a - o).cross (b - o)).normalized?.getD Vec.unitZ) = 1
    cases hn : ((a - o).cross (b - o)).normalized? with
    | none => exact Vec.unitZ_dot_self
    | some u => exact Vec.dot_self_of_normalized? hn
  cross := (Vec.scale_length_normalized? ((a - o).cross (b - o)) Vec.unitZ).symm

-- ---------------------------------------------------------------------------
-- Moving
-- ---------------------------------------------------------------------------

section
variable (p : Patch ℝ) (center : Vec ℝ)

theorem edge1_moveTo : (p.moveTo center).edge1 = p.edge1 := Vec.add_sub_add_right ..

theorem edge2_moveTo : (p.moveTo center).edge2 = p.edge2 := Vec.add_sub_add_right ..

theorem Congruent.moveTo : (p.moveTo center).Congruent p where
  edge1 := by rw [edge1_moveTo]
  edge2 := by rw [edge2_moveTo]
  angle := by rw [edge1_moveTo, edge2_moveTo]

theorem InSync.moveTo (h : p.InSync) : (p.moveTo center).InSync where
  center := by
    rw [edge1_moveTo, edge2_moveTo]
    change center = p.origin + (center - p.center) + (p.edge1 + p.edge2).scale (1 / 2)
    rw [h.center]
    ext <;> simp only [Vec.add_x, Vec.add_y, Vec.add_z, Vec.sub_x, Vec.sub_y, Vec.sub_z] <;> ring
  normal := h.normal
  cross := by rw [area, edge1_moveTo, edge2_moveTo]; exact h.cross

end

-- ---------------------------------------------------------------------------
-- Turning
-- ---------------------------------------------------------------------------

section
variable {p : Patch ℝ} {r : Rotation ℝ} {t : Vec ℝ}

theorem edge1_rotateCorners : (p.rotateCorners r).edge1 = r.turn p.edge1 :=
  r.turnPoint_sub p.corner1 p.origin

theorem edge2_rotateCorners : (p.rotateCorners r).edge2 = r.turn p.edge2 :=
  r.turnPoint_sub p.corner2 p.origin

theorem Congruent.rotateCorners : (p.rotateCorners r).Congruent p where
  edge1 := by rw [edge1_rotateCorners, r.turn_dot]
  edge2 := by rw [edge2_rotateCorners, r.turn_dot]
  angle := by rw [edge1_rotateCorners, edge2_rotateCorners, r.turn_dot]

/-- A rotation about the centre that carries the normal to `t` carries the patch with it. -/
theorem InSync.rotateCorners (h : p.InSync) (hpivot : r.pivot = p.center) (ht : t.dot t = 1)
    (hturn : r.turn (p.normal.scale p.area) = t.scale p.area) :
    InSync { p.rotateCorners r with normal := t } where
  center := by
    change p.center = r.turnPoint p.origin +
      ((p.rotateCorners r).edge1 + (p.rotateCorners r).edge2).scale (1 / 2)
    -- seen from the centre the origin is half the diagonal back, and so it is after the turn
    have hback : p.origin - p.center = ((p.edge1 + p.edge2).scale (1 / 2)).scale (-1) := by
      rw [h.center]
      ext <;> simp
    rw [edge1_rotateCorners, edge2_rotateCorners, r.turnPoint_eq, hpivot, hback, r.turn_scale,
      r.turn_scale, r.turn_add]
    ext <;> simp
  normal := ht
  cross := by
    have hcross : (p.rotateCorners r).edge1.cross (p.rotateCorners r).edge2 = t.scale p.area := by
      rw [edge1_rotateCorners, edge2_rotateCorners, r.turn_cross, h.cross, hturn]
    have harea : (p.rotateCorners r).area = p.area := by
      rw [area, edge1_rotateCorners, edge2_rotateCorners, r.turn_cross, r.turn_length, area]
    exact hcross.trans (congrArg t.scale harea.symm)

theorem InSync.turn_flip (h : p.InSync) (ht : t.dot t = 1) (hopposite : p.normal.dot t ≤ -1) :
    (⟨Scalar.halfTurn, p.edge1, p.center⟩ : Rotation ℝ).turn (p.normal.scale p.area) =
      t.scale p.area := by
  rw [Vec.eq_neg_of_dot_le h.normal ht hopposite]
  by_cases hedge : p.edge1 = Vec.zero
  -- the turn has no axis then and leaves the corners in place, but they span no area either
  · have harea : p.area = 0 := by
      rw [area, Vec.length_eq_zero, hedge]
      ext <;> simp
    rw [harea, Rotation.turn_scale]
    ext <;> simp
  · rw [Rotation.turn_halfTurn hedge (by rw [← h.cross, Vec.dot_cross_left])]
    ext <;> simp

/-- The three cases of a turn, by how far the target is from the normal. -/
theorem rotationTo?_cases (p : Patch ℝ) (t : Vec ℝ) :
    (1 ≤ p.normal.dot t ∧ p.rotationTo? t = none) ∨
      (p.normal.dot t ≤ -1 ∧ p.rotationTo? t = some ⟨Scalar.halfTurn, p.edge1, p.center⟩) ∨
      (-1 < p.normal.dot t ∧ p.normal.dot t < 1 ∧ p.rotationTo? t =
        some ⟨Scalar.toDegrees (Real.arccos (p.normal.dot t)), p.normal.cross t, p.center⟩) := by
  unfold rotationTo?
  by_cases hsame : 1 ≤ p.normal.dot t
  · have hle : Scalar.le Scalar.one (p.normal.dot t) = true := decide_eq_true hsame
    simp only [hle, if_true]
    exact .inl ⟨hsame, trivial⟩
  have hle : Scalar.le Scalar.one (p.normal.dot t) = false := decide_eq_false hsame
  by_cases hopposite : p.normal.dot t ≤ -1
  · have hle' : Scalar.le (p.normal.dot t) (-Scalar.one) = true := decide_eq_true hopposite
    simp only [hle, hle', Bool.false_eq_true, if_false, if_true]
    exact .inr (.inl ⟨hopposite, trivial⟩)
  · have hle' : Scalar.le (p.normal.dot t) (-Scalar.one) = false := decide_eq_false hopposite
    simp only [hle, hle', Bool.false_eq_true, if_false]
    exact .inr (.inr ⟨lt_of_not_ge hopposite, lt_of_not_ge hsame, rfl⟩)

/-- The rotation to a unit vector carries the normal there, scaled by the area: corners that span no
area need not turn with it. -/
theorem InSync.turn_normal (h : p.InSync) (ht : t.dot t = 1)
    (hangle : Scalar.toDegrees (Real.arccos (p.normal.dot t)) = 0 ∨
      2 ^ (-52 : ℤ) ≤ Scalar.toDegrees (Real.arccos (p.normal.dot t)))
    (hr : p.rotationTo? t = some r) :
    r.pivot = p.center ∧ r.turn (p.normal.scale p.area) = t.scale p.area := by
  obtain ⟨-, hcase⟩ | ⟨hopposite, hcase⟩ | ⟨hlow, hhigh, hcase⟩ := p.rotationTo?_cases t
  · cases hcase.symm.trans hr
  · cases hcase.symm.trans hr
    exact ⟨rfl, h.turn_flip ht hopposite⟩
  · cases hcase.symm.trans hr
    have hlarge : Scalar.negligible (Scalar.toDegrees (Real.arccos (p.normal.dot t))) = false := by
      rw [← Bool.not_eq_true, Rotation.negligible_iff_real, not_lt]
      obtain hzero | hlarge := hangle
      · exact absurd (Real.arccos_eq_zero.mp (Rotation.toDegrees_eq_zero.mp hzero)) hhigh.not_ge
      · exact hlarge.trans (le_abs_self _)
    rw [Rotation.turn_scale, Rotation.turn_carries h.normal ht hlow hhigh hlarge]
    exact ⟨rfl, rfl⟩

theorem InSync.eq_normal (h : p.InSync) (ht : t.dot t = 1) (hr : p.rotationTo? t = none) :
    t = p.normal := by
  obtain ⟨hsame, -⟩ | ⟨-, hcase⟩ | ⟨-, -, hcase⟩ := p.rotationTo?_cases t
  · exact Vec.eq_of_one_le_dot h.normal ht hsame
  · cases hcase.symm.trans hr
  · cases hcase.symm.trans hr

end

section
variable (p : Patch ℝ) (n : Vec ℝ)

/-- All that a turn can do: nothing, store another normal, or rotate the corners too. -/
theorem turnTo_cases : (n.normalized? = none ∧ p.turnTo n = p) ∨
    (∃ t, n.normalized? = some t ∧ p.rotationTo? t = none ∧
      p.turnTo n = { p with normal := t }) ∨
    ∃ t r, n.normalized? = some t ∧ p.rotationTo? t = some r ∧
      p.turnTo n = { p.rotateCorners r with normal := t } := by
  unfold turnTo
  cases hn : n.normalized? with
  | none => exact .inl ⟨rfl, rfl⟩
  | some t => cases hr : p.rotationTo? t with
    | none => exact .inr (.inl ⟨t, rfl, hr, by simp only [hr]⟩)
    | some r => exact .inr (.inr ⟨t, r, rfl, hr, by simp only [hr]⟩)

theorem center_turnTo : (p.turnTo n).center = p.center := by
  obtain ⟨-, h⟩ | ⟨t, -, -, h⟩ | ⟨t, r, -, -, h⟩ := p.turnTo_cases n <;> rw [h]
  rfl

theorem normal_turnTo : (p.turnTo n).normal = n.normalized?.getD p.normal := by
  obtain ⟨hn, h⟩ | ⟨t, hn, -, h⟩ | ⟨t, r, hn, -, h⟩ := p.turnTo_cases n <;> rw [h, hn] <;> rfl

theorem Congruent.turnTo : (p.turnTo n).Congruent p := by
  obtain ⟨-, h⟩ | ⟨t, -, -, h⟩ | ⟨t, r, -, -, h⟩ := p.turnTo_cases n <;> rw [h]
  · exact ⟨rfl, rfl, rfl⟩
  · exact ⟨rfl, rfl, rfl⟩
  · obtain ⟨h1, h2, h3⟩ := @Congruent.rotateCorners p r
    exact ⟨h1, h2, h3⟩

variable {p n}

theorem InSync.angle_eq (h : p.InSync) (hn : n.normalized? = some t) :
    p.normal.angle n = Scalar.toDegrees (Real.arccos (p.normal.dot t)) := by
  rw [Vec.eq_of_normalized? hn, Vec.dot_scale, Vec.angle,
    Vec.length_of_dot_self zero_le_one (h.normal.trans (mul_one 1).symm), one_mul, mul_one_div]

theorem InSync.turnTo (h : p.InSync) (hturns : p.normal.TurnsTo n) : (p.turnTo n).InSync := by
  obtain ⟨-, heq⟩ | ⟨t, hn, hr, heq⟩ | ⟨t, r, hn, hr, heq⟩ := p.turnTo_cases n <;> rw [heq]
  · exact h
  · rw [h.eq_normal (Vec.dot_self_of_normalized? hn) hr]
    exact h
  · have ht := Vec.dot_self_of_normalized? hn
    have hangle := hturns (Vec.ne_zero_of_normalized? hn)
    rw [h.angle_eq hn] at hangle
    obtain ⟨hpivot, hturn⟩ := h.turn_normal ht hangle hr
    exact h.rotateCorners hpivot ht hturn

end

-- ---------------------------------------------------------------------------
-- Runs
-- ---------------------------------------------------------------------------

inductive Moved (start : Patch ℝ) : Patch ℝ → Prop
  | start : Moved start start
  | moveTo (h : Moved start p) (center : Vec ℝ) : Moved start (p.moveTo center)
  | turnTo (h : Moved start p) (hn : p.normal.TurnsTo n) : Moved start (p.turnTo n)

section
variable {start p : Patch ℝ} (h : Moved start p)
include h

theorem Moved.inSync (hstart : start.InSync) : p.InSync := by
  induction h with
  | start => exact hstart
  | moveTo _ center ih => exact ih.moveTo _ center
  | turnTo _ hn ih => exact ih.turnTo hn

theorem Moved.congruent : p.Congruent start := by
  induction h with
  | start => exact ⟨rfl, rfl, rfl⟩
  | moveTo _ center ih => exact (Congruent.moveTo _ center).trans ih
  | turnTo _ _ ih => exact (Congruent.turnTo ..).trans ih

end

/-- The patch is the parallelogram that `start` is, with its own centre and normal. -/
structure Rigid (start p : Patch ℝ) : Prop where
  center : p.center = p.origin + (p.edge1 + p.edge2).scale (1 / 2)
  /-- The centre lies halfway between opposite corners. -/
  halfway : ∃ a b c d, p.corners = [a, b, c, d] ∧ a.midpoint c = p.center ∧ b.midpoint d = p.center
  length_edge1 : p.edge1.length = start.edge1.length
  length_edge2 : p.edge2.length = start.edge2.length
  dot_edges : p.edge1.dot p.edge2 = start.edge1.dot start.edge2
  length_normal : p.normal.length = 1
  cross_edges : p.edge1.cross p.edge2 = p.normal.scale p.area

/-- The square of half-width `r` around `c` that faces `n`, or upwards if `n` is zero. -/
structure IsSquare (r : ℝ) (c n : Vec ℝ) (p : Patch ℝ) : Prop where
  length_edge1 : p.edge1.length = 2 * |r|
  length_edge2 : p.edge2.length = 2 * |r|
  dot_edges : p.edge1.dot p.edge2 = 0
  edge1_dot_normal : p.edge1.dot p.normal = 0
  edge2_dot_normal : p.edge2.dot p.normal = 0
  center : p.center = c
  middle : p.origin + (p.edge1 + p.edge2).scale (1 / 2) = c
  normal_zero : n = Vec.zero → p.normal = Vec.unitZ
  normal : n ≠ Vec.zero → p.normal = n.scale (1 / n.length)

theorem InSync.rigid {start p : Patch ℝ} (h : p.InSync) (hc : p.Congruent start) :
    Rigid start p where
  center := h.center
  halfway := by
    have hmidpoint : ∀ a b : Vec ℝ, a.midpoint b = (a + b).scale (1 / 2) := fun _ _ => rfl
    refine ⟨_, _, _, _, rfl, ?_, ?_⟩
    all_goals
      rw [h.center, hmidpoint]
      ext <;> simp only [edge1, edge2, Vec.add_x, Vec.add_y, Vec.add_z, Vec.sub_x, Vec.sub_y,
        Vec.sub_z, Vec.scale_x, Vec.scale_y, Vec.scale_z] <;> ring
  length_edge1 := congrArg Real.sqrt hc.edge1
  length_edge2 := congrArg Real.sqrt hc.edge2
  dot_edges := hc.angle
  length_normal := (congrArg Real.sqrt h.normal).trans Real.sqrt_one
  cross_edges := h.cross

-- ---------------------------------------------------------------------------
-- Squares
-- ---------------------------------------------------------------------------

section
variable (r : ℝ)

theorem edge1_square : (square r).edge1 = ⟨2 * r, 0, 0⟩ := by
  change (⟨r - -r, -r - -r, (0 : ℝ) - 0⟩ : Vec ℝ) = _
  ext <;> ring

theorem edge2_square : (square r).edge2 = ⟨0, 2 * r, 0⟩ := by
  change (⟨-r - -r, r - -r, (0 : ℝ) - 0⟩ : Vec ℝ) = _
  ext <;> ring

theorem cross_square : (square r).edge1.cross (square r).edge2 = Vec.unitZ.scale (4 * r ^ 2) := by
  rw [edge1_square, edge2_square]
  change _ = (⟨0 * (4 * r ^ 2), 0 * (4 * r ^ 2), 1 * (4 * r ^ 2)⟩ : Vec ℝ)
  ext <;> simp only [Vec.cross_x, Vec.cross_y, Vec.cross_z] <;> ring

theorem normal_square : (square r).normal = Vec.unitZ := by
  change ((square r).edge1.cross (square r).edge2).normalized?.getD Vec.unitZ = _
  rw [cross_square]
  by_cases hr : r = 0
  · rw [hr, Vec.normalized?_of_zero (by ext <;> simp)]
    rfl
  · rw [Vec.normalized?_scale Vec.unitZ_dot_self (by positivity)]
    rfl

end

section
variable {p : Patch ℝ} {r : ℝ} (h : p.InSync)
include h

theorem InSync.edges_dot_normal (hright : p.edge1.dot p.edge2 = 0)
    (hsides : p.edge1.dot p.edge1 = p.edge2.dot p.edge2) :
    p.edge1.dot p.normal = 0 ∧ p.edge2.dot p.normal = 0 := by
  have h1 : p.edge1.dot p.normal * p.area = 0 := by
    rw [← Vec.dot_scale, ← h.cross, Vec.dot_cross_left]
  have h2 : p.edge2.dot p.normal * p.area = 0 := by
    rw [← Vec.dot_scale, ← h.cross, Vec.dot_cross_right]
  by_cases harea : p.area = 0
  -- equal edges at a right angle that span no area are both zero
  · have hsq : p.edge1.dot p.edge1 * p.edge1.dot p.edge1 = 0 := by
      have hlagrange := Vec.cross_dot_self p.edge1 p.edge2
      rw [← Vec.length_mul_self, hright, ← hsides] at hlagrange
      rw [area] at harea
      rw [harea] at hlagrange
      linarith
    have hzero : ∀ e : Vec ℝ, e.dot e = 0 → e.dot p.normal = 0 := fun e he => by
      rw [Vec.dot_self_eq_zero.mp he]
      simp [Vec.dot_eq]
    have hedge1 := mul_self_eq_zero.mp hsq
    exact ⟨hzero _ hedge1, hzero _ (hsides ▸ hedge1)⟩
  · exact ⟨(mul_eq_zero.mp h1).resolve_right harea, (mul_eq_zero.mp h2).resolve_right harea⟩

theorem InSync.isSquare (hc : p.Congruent (square r)) {n : Vec ℝ}
    (hnormal : p.normal = n.normalized?.getD Vec.unitZ) : IsSquare r p.center n p := by
  have hside1 : p.edge1.dot p.edge1 = 2 * |r| * (2 * |r|) := by
    rw [hc.edge1, edge1_square, Vec.dot_eq]
    linear_combination -4 * abs_mul_abs_self r
  have hside2 : p.edge2.dot p.edge2 = 2 * |r| * (2 * |r|) := by
    rw [hc.edge2, edge2_square, Vec.dot_eq]
    linear_combination -4 * abs_mul_abs_self r
  have hright : p.edge1.dot p.edge2 = 0 := by
    rw [hc.angle, edge1_square, edge2_square, Vec.dot_eq]
    ring
  obtain ⟨h1, h2⟩ := h.edges_dot_normal hright (hside1.trans hside2.symm)
  exact {
    length_edge1 := Vec.length_of_dot_self (by positivity) hside1
    length_edge2 := Vec.length_of_dot_self (by positivity) hside2
    dot_edges := hright
    edge1_dot_normal := h1
    edge2_dot_normal := h2
    center := rfl
    middle := h.center.symm
    normal_zero := fun hn => by rw [hnormal, Vec.normalized?_of_zero hn, Option.getD_none]
    normal := fun hn => by rw [hnormal, Vec.normalized?_of_ne hn, Option.getD_some] }

end

/-- Patches that are moved and turned stay rigid. So the plane of a boundary, which is `facing` of its
radius, centre and normal, is the square that these describe. -/
theorem moved_rigid :
    (∀ o a b p, Moved (ofCorners o a b) p → Rigid (ofCorners o a b) p) ∧
      ∀ r c n, Vec.unitZ.TurnsTo n → IsSquare r c n (facing r c n) := by
  constructor
  · intro o a b p h
    exact (h.inSync (.ofCorners o a b)).rigid h.congruent
  · intro r c n hn
    have hturns : ((square r).moveTo c).normal.TurnsTo n := by
      change (square r).normal.TurnsTo n
      rwa [normal_square]
    have h : Moved (square r) (facing r c n) := .turnTo (.moveTo .start c) hturns
    have hnormal : (facing r c n).normal = n.normalized?.getD Vec.unitZ :=
      (normal_turnTo ..).trans (congrArg n.normalized?.getD (normal_square r))
    have hcenter : (facing r c n).center = c := center_turnTo ..
    have hsquare := (h.inSync (.ofCorners ..)).isSquare h.congruent hnormal
    rwa [hcenter] at hsquare

theorem moved_rigid_flipped : ∃ p : Patch ℝ,
    Moved (ofCorners ⟨-1, -1, 0⟩ ⟨1, -1, 0⟩ ⟨-1, 1, 0⟩) p ∧ p.normal = ⟨-1, 0, 0⟩ ∧
      Rigid (ofCorners ⟨-1, -1, 0⟩ ⟨1, -1, 0⟩ ⟨-1, 1, 0⟩) p ∧
      IsSquare 2 ⟨5, 0, 0⟩ ⟨1, 0, 0⟩ (facing 2 ⟨5, 0, 0⟩ ⟨1, 0, 0⟩) := by
  have hupright : ∀ x : ℝ, (Vec.unitZ : Vec ℝ).dot ⟨x, 0, 0⟩ ≤ 0 := fun x => by
    change 0 * x + 0 * 0 + 1 * 0 ≤ (0 : ℝ)
    simp
  have hunit : ∀ x : ℝ, x * x = 1 → (⟨x, 0, 0⟩ : Vec ℝ).normalized? = some ⟨x, 0, 0⟩ :=
    fun x hx => Vec.normalized?_of_unit (by simpa [Vec.dot_eq] using hx)
  let start : Patch ℝ := ofCorners ⟨-1, -1, 0⟩ ⟨1, -1, 0⟩ ⟨-1, 1, 0⟩
  let turned := (start.moveTo ⟨5, 0, 0⟩).turnTo ⟨1, 0, 0⟩
  have hstart : (start.moveTo ⟨5, 0, 0⟩).normal = Vec.unitZ := normal_square 1
  have hnormal : turned.normal = ⟨1, 0, 0⟩ := by
    rw [normal_turnTo, hunit 1 (by norm_num), Option.getD_some]
  have hturned : Moved start turned := by
    refine .turnTo (.moveTo .start _) (Vec.turnsTo_of_dot_nonpos ?_)
    rw [hstart]
    exact hupright 1
  have hflipped : Moved start (turned.turnTo ⟨-1, 0, 0⟩) := by
    refine .turnTo hturned (Vec.turnsTo_of_dot_nonpos ?_)
    rw [hnormal]
    change 1 * -1 + 0 * 0 + 0 * 0 ≤ (0 : ℝ)
    norm_num
  refine ⟨_, hflipped, ?_, moved_rigid.1 _ _ _ _ hflipped,
    moved_rigid.2 _ _ _ (Vec.turnsTo_of_dot_nonpos (hupright 1))⟩
  rw [normal_turnTo, hunit (-1) (by norm_num), Option.getD_some]

end Patch

end SimSetup
