import SimSetup.Proofs.Double.Near
import SimSetup.Proofs.Geometry.Real

/-!
# Computed vectors near exact ones

The operations on vectors of doubles stay near the same operations on real vectors, and so does the
winding of a turned patch whose corners are not too far out.
-/

namespace SimSetup

open Double

/-- The vector of doubles has the exact components of `a`. -/
structure ExactVec (v : Vec Float) (a : Vec ℝ) : Prop where
  x : Exact v.x a.x
  y : Exact v.y a.y
  z : Exact v.z a.z

structure NearVec (v : Vec Float) (a : Vec ℝ) (m ε : ℝ) : Prop where
  x : Near v.x a.x m ε
  y : Near v.y a.y m ε
  z : Near v.z a.z m ε

theorem ExactVec.near {v : Vec Float} {a : Vec ℝ} (h : ExactVec v a) (hx : |a.x| ≤ m)
    (hy : |a.y| ≤ m) (hz : |a.z| ≤ m) : NearVec v a m 0 :=
  ⟨h.x.near hx, h.y.near hy, h.z.near hz⟩

namespace NearVec

variable {v w : Vec Float} {a b : Vec ℝ} {m n ε δ : ℝ}

theorem weaken (h : NearVec v a m ε) (hm : m ≤ n) (hε : ε ≤ δ) : NearVec v a n δ :=
  ⟨h.x.weaken hm hε, h.y.weaken hm hε, h.z.weaken hm hε⟩

variable [Trig]

theorem add (hv : NearVec v a m ε) (hw : NearVec w b n δ)
    (hb : m + n + (ε + δ) ≤ 2 ^ 200) :
    NearVec (v + w) (a + b) (m + n) (sumError m n ε δ) :=
  ⟨hv.x.add hw.x hb, hv.y.add hw.y hb, hv.z.add hw.z hb⟩

theorem sub (hv : NearVec v a m ε) (hw : NearVec w b n δ)
    (hb : m + n + (ε + δ) ≤ 2 ^ 200) :
    NearVec (v - w) (a - b) (m + n) (sumError m n ε δ) :=
  ⟨hv.x.sub hw.x hb, hv.y.sub hw.y hb, hv.z.sub hw.z hb⟩

theorem scale {f : Float} {s : ℝ} (hv : NearVec v a m ε) (hf : Near f s n δ)
    (hb : m * n + (m * δ + n * ε + ε * δ) ≤ 2 ^ 200) :
    NearVec (v.scale f) (a.scale s) (m * n) (productError m n ε δ) :=
  ⟨hv.x.mul hf hb, hv.y.mul hf hb, hv.z.mul hf hb⟩

variable {M η : ℝ}

theorem cross (hv : NearVec v a m ε) (hw : NearVec w b n δ) (hM : m * n ≤ M)
    (hη : productError m n ε δ ≤ η) (hp : m * n + (m * δ + n * ε + ε * δ) ≤ 2 ^ 200)
    (hb : M + M + (η + η) ≤ 2 ^ 200) :
    NearVec (v.cross w) (a.cross b) (M + M) (sumError M M η η) := by
  have hmul {x y : Float} {c d : ℝ} (hx : Near x c m ε) (hy : Near y d n δ) :
      Near (x * y) (c * d) M η := (hx.mul hy hp).weaken hM hη
  exact ⟨(hmul hv.y hw.z).sub (hmul hv.z hw.y) hb, (hmul hv.z hw.x).sub (hmul hv.x hw.z) hb,
    (hmul hv.x hw.y).sub (hmul hv.y hw.x) hb⟩

theorem dot (hv : NearVec v a m ε) (hw : NearVec w b n δ) (hM : m * n ≤ M)
    (hη : productError m n ε δ ≤ η) (hp : m * n + (m * δ + n * ε + ε * δ) ≤ 2 ^ 200)
    (hb : M + M + M + (sumError M M η η + η) ≤ 2 ^ 200) :
    Near (v.dot w) (a.dot b) (M + M + M) (sumError (M + M) M (sumError M M η η) η) := by
  have hmul {x y : Float} {c d : ℝ} (hx : Near x c m ε) (hy : Near y d n δ) :
      Near (x * y) (c * d) M η := (hx.mul hy hp).weaken hM hη
  have hxy := hmul hv.x hw.x
  refine (hxy.add (hmul hv.y hw.y) ?_).add (hmul hv.z hw.z) hb
  have hM0 := hxy.nonneg.1
  have hη0 := hxy.nonneg.2
  have : 0 ≤ slack (M + M + (η + η)) := mul_nonneg roundoff_pos.le (by positivity)
  unfold sumError at hb
  linarith

end NearVec

variable [Trig]

-- ---------------------------------------------------------------------------
-- Turning
-- ---------------------------------------------------------------------------

section
variable {k v : Vec Float} {a b : Vec ℝ} {c s : ℝ} {θ : Float}

theorem near_rodrigues (hk : NearVec k a 1.5 0) (hv : NearVec v b 1000 0)
    (hc : Near (Trig.cos θ) c 1.01 0) (hs : Near (Trig.sin θ) s 1.01 0) :
    NearVec (Rotation.rodrigues k θ v) (Rotation.turned c s a b) 20000 1e-10 := by
  have hvc : NearVec (v.scale (Trig.cos θ)) (b.scale c) 1010 1e-12 :=
    (hv.scale hc (by norm_num)).weaken (by norm_num) (by norm_num [productError, slack, roundoff])
  have hkv : NearVec (k.cross v) (a.cross b) 3000 1e-12 :=
    (hk.cross (M := 1500) (η := 2e-13) hv (by norm_num)
      (by norm_num [productError, slack, roundoff])
      (by norm_num) (by norm_num)).weaken (by norm_num) (by norm_num [sumError, slack, roundoff])
  have hkvs : NearVec ((k.cross v).scale (Trig.sin θ)) ((a.cross b).scale s) 3030 2e-12 :=
    (hkv.scale hs (by norm_num)).weaken (by norm_num) (by norm_num [productError, slack, roundoff])
  have hdot : Near (k.dot v) (a.dot b) 4500 2e-12 :=
    (hk.dot (M := 1500) (η := 2e-13) hv (by norm_num) (by norm_num [productError, slack, roundoff])
      (by norm_num) (by norm_num [sumError, slack, roundoff])).weaken (by norm_num)
      (by norm_num [sumError, slack, roundoff])
  have hrest : Near (1.0 - Trig.cos θ) (1 - c) 2.01 1e-15 :=
    ((exact_one.near (m := 1) (by norm_num)).sub hc (by norm_num)).weaken (by norm_num)
      (by norm_num [sumError, slack, roundoff])
  have hprod : Near (k.dot v * (1.0 - Trig.cos θ)) (a.dot b * (1 - c)) 9050 1e-11 :=
    (hdot.mul hrest (by norm_num)).weaken (by norm_num)
      (by norm_num [productError, slack, roundoff])
  have halong : NearVec (k.scale (k.dot v * (1.0 - Trig.cos θ))) (a.scale (a.dot b * (1 - c))) 13600
      2e-11 :=
    (hk.scale hprod (by norm_num)).weaken (by norm_num)
      (by norm_num [productError, slack, roundoff])
  exact ((hvc.add hkvs (by norm_num)).add halong (by norm_num [sumError, slack, roundoff])).weaken
    (by norm_num) (by norm_num [sumError, slack, roundoff])

end

-- ---------------------------------------------------------------------------
-- Winding
-- ---------------------------------------------------------------------------

theorem near_winding {p : Patch Float} {q : Patch ℝ} (h0 : NearVec p.origin q.origin 20000 2e-10)
    (h1 : NearVec p.corner1 q.corner1 20000 2e-10) (h2 : NearVec p.corner2 q.corner2 20000 2e-10)
    (hn : NearVec p.normal q.normal 1.01 0) : Near p.winding q.winding 1e10 0.01 := by
  have hedge1 : NearVec p.edge1 q.edge1 40000 1e-9 :=
    (h1.sub h0 (by norm_num)).weaken (by norm_num) (by norm_num [sumError, slack, roundoff])
  have hedge2 : NearVec p.edge2 q.edge2 40000 1e-9 :=
    (h2.sub h0 (by norm_num)).weaken (by norm_num) (by norm_num [sumError, slack, roundoff])
  have hcross : NearVec (p.edge1.cross p.edge2) (q.edge1.cross q.edge2) 3.2e9 1e-3 :=
    (hedge1.cross (M := 1.6e9) (η := 1e-4) hedge2 (by norm_num)
      (by norm_num [productError, slack, roundoff])
      (by norm_num) (by norm_num)).weaken (by norm_num) (by norm_num [sumError, slack, roundoff])
  exact (hcross.dot (M := 3.3e9) (η := 2e-3) hn (by norm_num)
    (by norm_num [productError, slack, roundoff])
    (by norm_num) (by norm_num [sumError, slack, roundoff])).weaken (by norm_num)
    (by norm_num [sumError, slack, roundoff])

end SimSetup
