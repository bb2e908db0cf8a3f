import RobotMotion.Geometry.Rotation
import Mathlib.Analysis.Real.Sqrt
import Mathlib.Tactic.FieldSimp
import Mathlib.Tactic.Linarith
import Mathlib.Tactic.Ring

/-!
# Exact geometry

The motion rules read over the real numbers, where lengths and quaternions obey the
laws they stand for. A quaternion times its conjugate is its squared length
(`Rotation.mul_mul_conjugate`), normalizing forgets a positive factor
(`Rotation.normalize_scale`), and a quaternion of any length stretches what it turns by
its squared length (`Rotation.turn_scale`): only one of unit length just turns.
-/

namespace RobotMotion

/-- The rules over exact numbers. -/
noncomputable instance : Scalar ℝ where
  ofNat := Nat.cast
  sqrt := Real.sqrt
  less a b := decide (a < b)

attribute [ext] Vector3 Rotation

namespace Scalar

/-- Nought among the exact numbers is the number 0. -/
@[simp] theorem zero_real : (zero : ℝ) = 0 := Nat.cast_zero

/-- One is the number 1. -/
@[simp] theorem one_real : (one : ℝ) = 1 := Nat.cast_one

/-- And two is the number 2. -/
@[simp] theorem two_real : (two : ℝ) = 2 := Nat.cast_ofNat

end Scalar

namespace Vector3

variable (v w : Vector3 ℝ) (k : ℝ)

theorem add_def : v + w = ⟨v.x + w.x, v.y + w.y, v.z + w.z⟩ := rfl

theorem sub_def : v - w = ⟨v.x - w.x, v.y - w.y, v.z - w.z⟩ := rfl

/-- A displacement from the origin is the point itself. -/
theorem zero_add : zero + v = v := by
  ext <;> simp [add_def, zero]

/-- Back from a displacement. -/
theorem add_sub_cancel : v + w - w = v :=
  Vector3.ext (add_sub_cancel_right v.x w.x) (add_sub_cancel_right v.y w.y)
    (add_sub_cancel_right v.z w.z)

/-- A squared length is never negative. -/
theorem dot_self_nonneg : 0 ≤ v.dot v :=
  add_nonneg (add_nonneg (mul_self_nonneg v.x) (mul_self_nonneg v.y)) (mul_self_nonneg v.z)

/-- A factor counts twice in a squared length. -/
theorem dot_scale : (v.scale k).dot (v.scale k) = v.dot v * (k * k) := by
  simp only [dot, scale]
  ring

theorem scale_one : v.scale 1 = v :=
  Vector3.ext (mul_one v.x) (mul_one v.y) (mul_one v.z)

/-- The way to a displaced point is the length of the displacement. -/
theorem distance_add : v.distance (v + w) = w.length := by
  have hway : (v - (v + w)).dot (v - (v + w)) = w.dot w := by
    simp only [add_def, sub_def, dot]
    ring
  rw [distance, length, hway, length]

/-- **Staying in place is no way at all.** -/
@[simp] theorem distance_self : v.distance v = 0 := by
  have hway : (v - v).dot (v - v) = 0 := by
    simp only [sub_def, dot]
    ring
  rw [distance, length, hway]
  exact Real.sqrt_zero

/-- A factor that is not negative counts once in a length. -/
theorem length_scale (hk : 0 ≤ k) : (v.scale k).length = k * v.length := by
  rw [length, dot_scale]
  -- the length over the reals is the square root of Mathlib
  show √(v.dot v * (k * k)) = k * √(v.dot v)
  rw [Real.sqrt_mul v.dot_self_nonneg, Real.sqrt_mul_self hk, mul_comm]

end Vector3

namespace Rotation

/-! ### Squared lengths -/

section Dot

variable (a b q : Rotation ℝ) (k : ℝ)

/-- **Squared lengths of quaternions multiply.** -/
theorem dot_mul : (a * b).dot (a * b) = a.dot a * b.dot b := by
  show (compose a b).dot (compose a b) = a.dot a * b.dot b
  simp only [dot, compose]
  ring

/-- A factor counts twice in a squared length. -/
theorem dot_scale : (q.scale k).dot (q.scale k) = q.dot q * (k * k) := by
  simp only [dot, scale]
  ring

/-- A squared length is never negative. -/
theorem dot_self_nonneg : 0 ≤ q.dot q :=
  add_nonneg
    (add_nonneg (add_nonneg (mul_self_nonneg q.x) (mul_self_nonneg q.y)) (mul_self_nonneg q.z))
    (mul_self_nonneg q.w)

/-- The conjugate is as long as the quaternion. -/
theorem dot_conjugate : q.conjugate.dot q.conjugate = q.dot q := by
  simp only [dot, conjugate]
  ring

/-- Every quaternion but zero has a length. -/
theorem dot_self_pos {q : Rotation ℝ} (hq : q ≠ ⟨0, 0, 0, 0⟩) : 0 < q.dot q := by
  refine lt_of_le_of_ne q.dot_self_nonneg fun hzero => hq ?_
  simp only [dot] at hzero
  -- a sum of squares vanishes only with each of them
  have hx := mul_self_nonneg q.x
  have hy := mul_self_nonneg q.y
  have hz := mul_self_nonneg q.z
  have hw := mul_self_nonneg q.w
  ext
  · exact mul_self_eq_zero.mp (by linarith)
  · exact mul_self_eq_zero.mp (by linarith)
  · exact mul_self_eq_zero.mp (by linarith)
  · exact mul_self_eq_zero.mp (by linarith)

/-- Two quaternions that have a length have one in sequence. -/
theorem dot_mul_pos {a b : Rotation ℝ} (ha : 0 < a.dot a) (hb : 0 < b.dot b) :
    0 < (a * b).dot (a * b) := by
  rw [dot_mul]
  exact mul_pos ha hb

/-- The identity has unit length. -/
theorem dot_identity : (identity : Rotation ℝ).dot identity = 1 := by
  simp [dot, identity]

end Dot

/-! ### Factors -/

section Scale

variable (a b q : Rotation ℝ) (j k : ℝ)

theorem scale_one : q.scale 1 = q :=
  Rotation.ext (mul_one q.x) (mul_one q.y) (mul_one q.z) (mul_one q.w)

/-- Factors multiply. -/
theorem scale_scale : (q.scale j).scale k = q.scale (j * k) :=
  Rotation.ext (mul_assoc q.x j k) (mul_assoc q.y j k) (mul_assoc q.z j k) (mul_assoc q.w j k)

/-- A factor may be taken out of a composition. -/
theorem scale_mul : a.scale k * b = (a * b).scale k := by
  show compose (a.scale k) b = (compose a b).scale k
  ext <;> simp only [compose, scale] <;> ring

theorem identity_mul : identity * q = q := by
  show compose identity q = q
  ext <;> simp [compose, identity]

/-- The identity turns nothing. -/
theorem turn_identity (v : Vector3 ℝ) : (identity : Rotation ℝ).turn v = v := by
  ext <;> simp [turn, vectorPart, identity, Vector3.add_def, Vector3.scale, Vector3.dot,
    Vector3.cross]

/-- **The conjugate undoes a rotation up to a factor.** -/
theorem mul_mul_conjugate : a * b * b.conjugate = a.scale (b.dot b) := by
  show compose (compose a b) b.conjugate = a.scale (b.dot b)
  ext <;> simp only [compose, conjugate, scale, dot] <;> ring

/-- **A longer quaternion stretches what it turns**, by the square of its length. -/
theorem turn_scale (v : Vector3 ℝ) : (q.scale k).turn v = (q.turn v).scale (k * k) := by
  ext <;>
    simp only [turn, vectorPart, scale, Vector3.add_def, Vector3.scale, Vector3.dot,
      Vector3.cross] <;>
    ring

end Scale

/-! ### Normalizing -/

section Normalize

variable {q : Rotation ℝ}

/-- Whatever has a squared length has a length. -/
theorem length_pos (hq : 0 < q.dot q) : 0 < q.length := Real.sqrt_pos.mpr hq

/-- The length squared is the squared length. -/
theorem length_mul_length (q : Rotation ℝ) : q.length * q.length = q.dot q :=
  Real.mul_self_sqrt q.dot_self_nonneg

/-- Normalizing is scaling by the inverse of the length. -/
theorem normalize_eq (q : Rotation ℝ) : q.normalize = q.scale q.length⁻¹ := by
  rw [normalize, Scalar.one_real, one_div]

/-- **Normalizing brings every quaternion but zero to unit length.** -/
theorem dot_normalize (hq : 0 < q.dot q) : q.normalize.dot q.normalize = 1 := by
  have hlength := (length_pos hq).ne'
  rw [normalize_eq, dot_scale, ← length_mul_length]
  field_simp

/-- A quaternion of unit length is normalized already. -/
theorem normalize_of_unit (hq : q.dot q = 1) : q.normalize = q := by
  have hlength : q.length = 1 := by
    show √(q.dot q) = 1
    rw [hq, Real.sqrt_one]
  rw [normalize_eq, hlength, inv_one, scale_one]

/-- A factor that is not negative counts once in a length. -/
theorem length_scale (q : Rotation ℝ) {k : ℝ} (hk : 0 ≤ k) :
    (q.scale k).length = q.length * k := by
  show √((q.scale k).dot (q.scale k)) = √(q.dot q) * k
  rw [dot_scale, Real.sqrt_mul q.dot_self_nonneg, Real.sqrt_mul_self hk]

/-- **Normalizing forgets a positive factor.** -/
theorem normalize_scale (q : Rotation ℝ) {k : ℝ} (hk : 0 < k) :
    (q.scale k).normalize = q.normalize := by
  -- the factor cancels against itself in the length
  have hfactor : k * (q.length * k)⁻¹ = q.length⁻¹ := by
    field_simp
  rw [normalize_eq, length_scale q hk.le, scale_scale, hfactor, normalize_eq]

/-- A quaternion turns as the normalized one does, and stretches by its squared length. -/
theorem turn_eq_normalize (hq : 0 < q.dot q) (v : Vector3 ℝ) :
    q.turn v = (q.normalize.turn v).scale (q.dot q) := by
  have hlength := (length_pos hq).ne'
  -- the normalized quaternion has to be brought back to the length it had
  have hq' : q = q.normalize.scale q.length := by
    rw [normalize_eq, scale_scale, inv_mul_cancel₀ hlength, scale_one]
  calc q.turn v = (q.normalize.scale q.length).turn v := by rw [← hq']
    _ = (q.normalize.turn v).scale (q.dot q) := by rw [turn_scale, length_mul_length]

end Normalize

end Rotation

end RobotMotion
