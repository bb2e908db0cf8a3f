import RobotMotion.Proofs.Device.Extrusion
import RobotMotion.Proofs.Device.Memory

/-!
# Motions in two halves

A relative transformation moves and turns at once, and `Command.halves` are the
translation and the rotation that it is made of, in its order. Read over exact numbers,
the halves turn the tool as the transformation does. They also move it as the
transformation does, with one exception: a transformation in the tool frame that turns
first moves along axes that were turned and not yet normalized, so a quaternion stretches
the way, and what is extruded on it, by its squared length (`Device.perform_halves`).
-/

namespace RobotMotion

/-- The two commands that a relative transformation is made of, in its order. -/
def Command.halves {α : Type} (translation : Vector3 α) (delta : Rotation α)
    (translationFirst : Bool) : Command α × Command α :=
  if translationFirst then (.translation translation true, .rotation delta true)
  else (.rotation delta true, .translation translation true)

/-- How much longer the way of a transformation is than the way of its halves. -/
noncomputable def ReferenceFrame.stretch (frame : ReferenceFrame) (delta : Rotation ℝ)
    (translationFirst : Bool) : ℝ :=
  match frame, translationFirst with
  | .tool, false => delta.dot delta
  | _, _ => 1

theorem ReferenceFrame.stretch_nonneg (frame : ReferenceFrame) (delta : Rotation ℝ)
    (translationFirst : Bool) : 0 ≤ frame.stretch delta translationFirst := by
  cases frame with
  | world => exact zero_le_one
  | tool =>
    cases translationFirst with
    | true => exact zero_le_one
    | false => exact delta.dot_self_nonneg

namespace State

variable {s : State ℝ} {here : Vector3 ℝ}

/-! ### Motions one after the other -/

/-- Turning in place after a motion can be part of the motion. -/
theorem moveTo_moveTo_here (s : State ℝ) (there : Vector3 ℝ) (r r' : Rotation ℝ) :
    (s.moveTo there r).moveTo there r' = s.moveTo there r' := by
  have hextruded : (s.moveTo there r).extrusionTo there = s.extrusionTo there :=
    extrusionTo_here (s := s.moveTo there r) rfl
  rw [moveTo, hextruded]
  rfl

/-- Turning in place before a motion can be part of the motion. -/
theorem moveTo_here_moveTo (hs : s.position = some here) (there : Vector3 ℝ)
    (r r' : Rotation ℝ) : (s.moveTo here r).moveTo there r' = s.moveTo there r' := by
  have hextruded : (s.moveTo here r).extrusionTo there = s.extrusionTo there := by
    cases hextruding : s.extruding with
    | false =>
      rw [extrusionTo_of_idle (s := s.moveTo here r) hextruding, extrusionTo_of_idle hextruding]
      exact extrusionTo_here hs
    | true =>
      rw [extrusionTo_of_extruding (s := s.moveTo here r) hextruding rfl,
        extrusionTo_of_extruding hextruding hs]
      show s.extrusionTo here + _ = _
      rw [extrusionTo_here hs]
      rfl
  rw [moveTo, hextruded]
  rfl

/-- Where a motion ends the rotation is normalized, and normalizing it before changes
nothing. -/
theorem moveTo_normalize (s : State ℝ) (there : Vector3 ℝ) {r : Rotation ℝ} (hr : 0 < r.dot r) :
    s.moveTo there r.normalize = s.moveTo there r := by
  rw [moveTo, moveTo, Rotation.normalize_of_unit (Rotation.dot_normalize hr)]

/-! ### The halves of a transformation -/

theorem dot_rotatedBy (frame : ReferenceFrame) {r : Rotation ℝ} (hr : r.dot r = 1)
    (delta : Rotation ℝ) :
    (rotatedBy frame r delta).dot (rotatedBy frame r delta) = delta.dot delta := by
  cases frame with
  | world =>
    show (delta * r).dot (delta * r) = delta.dot delta
    rw [Rotation.dot_mul, hr, mul_one]
  | tool =>
    show (r * delta).dot (r * delta) = delta.dot delta
    rw [Rotation.dot_mul, hr, one_mul]

/-- A displacement along axes that are not normalized is stretched. -/
theorem worldDisplacement_stretch (frame : ReferenceFrame) {r delta : Rotation ℝ}
    (hr : r.dot r = 1) (hdelta : 0 < delta.dot delta) (translationFirst : Bool)
    (translation : Vector3 ℝ) :
    let rotated := rotatedBy frame r delta
    worldDisplacement frame (if translationFirst then r else rotated) translation =
      (worldDisplacement frame (if translationFirst then r else rotated.normalize)
        translation).scale (frame.stretch delta translationFirst) := by
  intro rotated
  cases frame with
  | world => exact (Vector3.scale_one translation).symm
  | tool =>
    cases translationFirst with
    | true => exact (Vector3.scale_one _).symm
    | false =>
      have hdot : rotated.dot rotated = delta.dot delta := dot_rotatedBy .tool hr delta
      show rotated.turn translation = (rotated.normalize.turn translation).scale (delta.dot delta)
      rw [← hdot]
      exact Rotation.turn_eq_normalize (hdot ▸ hdelta) translation

/-! ### Relative motions -/

theorem translate_relative {r : Rotation ℝ} (hs : s.position = some here)
    (hr : s.rotation = some r) (translation : Vector3 ℝ) :
    s.translate translation true =
      .ok (s.moveTo (here + worldDisplacement s.settings.frame r translation) r) := by
  simp only [translate, pose?_eq_some_iff.mpr ⟨hs, hr⟩, if_true]

theorem rotate_relative {r : Rotation ℝ} (hs : s.position = some here)
    (hr : s.rotation = some r) (delta : Rotation ℝ) :
    s.rotate delta true = .ok (s.moveTo here (rotatedBy s.settings.frame r delta)) := by
  simp only [rotate, pose?_eq_some_iff.mpr ⟨hs, hr⟩, if_true]

theorem transform_relative {r : Rotation ℝ} (hs : s.position = some here)
    (hr : s.rotation = some r) (translation : Vector3 ℝ) (delta : Rotation ℝ)
    (translationFirst : Bool) :
    let rotated := rotatedBy s.settings.frame r delta
    s.transform translation delta true translationFirst =
      .ok (s.moveTo (here + worldDisplacement s.settings.frame
        (if translationFirst then r else rotated) translation) rotated) := by
  simp only [transform, pose?_eq_some_iff.mpr ⟨hs, hr⟩, if_true]

end State

/-! ### Both ways -/

namespace Device

open RobotMotion.State (rotatedBy worldDisplacement)

variable {d : Device ℝ} {here : Vector3 ℝ} {r delta : Rotation ℝ}

/-- The halves end in a motion to the rotation of the transformation. -/
theorem perform_halves (hready : d.ready = true) (hs : d.state.position = some here)
    (hr : d.state.rotation = some r) (hunit : r.dot r = 1) (hdelta : 0 < delta.dot delta)
    (translation : Vector3 ℝ) (translationFirst : Bool) :
    let frame := d.state.settings.frame
    let halves := Command.halves translation delta translationFirst
    let rotated := rotatedBy frame r delta
    let way := worldDisplacement frame (if translationFirst then r else rotated.normalize)
      translation
    ∃ between memory, d.perform halves.1 = .ok between ∧
      between.perform halves.2 =
        .ok ⟨true, (d.state.moveTo (here + way) rotated).remembering memory, d.stack⟩ := by
  intro frame halves rotated way
  cases translationFirst with
  | true =>
    have hfirst : d.state.perform (.translation translation true) =
        .ok (d.state.moveTo (here + way) r) := State.translate_relative hs hr translation
    have hsecond : (d.state.moveTo (here + way) r).perform (.rotation delta true) =
        .ok (d.state.moveTo (here + way) rotated) := by
      have hr' : (d.state.moveTo (here + way) r).rotation = some r := by
        show some r.normalize = some r
        rw [Rotation.normalize_of_unit hunit]
      rw [State.perform, State.rotate_relative (s := d.state.moveTo (here + way) r) rfl hr' delta,
        State.moveTo_moveTo_here]
      rfl
    exact perform_perform_of_state hready hfirst rfl hsecond rfl
  | false =>
    have hfirst : d.state.perform (.rotation delta true) = .ok (d.state.moveTo here rotated) :=
      State.rotate_relative hs hr delta
    have hsecond : (d.state.moveTo here rotated).perform (.translation translation true) =
        .ok (d.state.moveTo (here + way) rotated) := by
      have hrotated : 0 < rotated.dot rotated := by
        rwa [State.dot_rotatedBy frame hunit]
      rw [State.perform,
        State.translate_relative (s := d.state.moveTo here rotated) rfl rfl translation,
        State.moveTo_here_moveTo hs, State.moveTo_normalize _ _ hrotated]
      rfl
    exact perform_perform_of_state hready hfirst rfl hsecond rfl

/-- The transformation is a motion to the same rotation, on a way that may be longer. -/
theorem perform_transformation (hready : d.ready = true) (hs : d.state.position = some here)
    (hr : d.state.rotation = some r) (hunit : r.dot r = 1) (hdelta : 0 < delta.dot delta)
    (translation : Vector3 ℝ) (translationFirst : Bool) :
    let frame := d.state.settings.frame
    let rotated := rotatedBy frame r delta
    let way := worldDisplacement frame (if translationFirst then r else rotated.normalize)
      translation
    d.perform (.transformation translation delta true translationFirst) =
      .ok ⟨true, (d.state.moveTo (here + way.scale (frame.stretch delta translationFirst))
        rotated).remembering d.state.snapshot, d.stack⟩ := by
  intro frame rotated way
  refine perform_of_state hready ?_ rfl
  rw [State.perform, State.transform_relative hs hr,
    State.worldDisplacement_stretch _ hunit hdelta]

/-- **A relative transformation and its halves.** On a device with a rotation of unit
length, the transformation and its halves are carried out and end in the same rotation.
The way of the transformation, and what is extruded on it, is longer by the squared length
of the quaternion in the tool frame when the rotation comes first. Everywhere else, and
for quaternions of unit length, both leave the same device but for its memory. -/
theorem transformation_halves (hready : d.ready = true) (hs : d.state.position = some here)
    (hr : d.state.rotation = some r) (hunit : r.dot r = 1) (hdelta : delta ≠ ⟨0, 0, 0, 0⟩)
    (translation : Vector3 ℝ) (translationFirst : Bool) :
    let halves := Command.halves translation delta translationFirst
    let stretch := d.state.settings.frame.stretch delta translationFirst
    ∃ whole between stepped way,
      d.perform (.transformation translation delta true translationFirst) = .ok whole ∧
      d.perform halves.1 = .ok between ∧ between.perform halves.2 = .ok stepped ∧
      whole.state.rotation = stepped.state.rotation ∧
      stepped.state.position = some (here + way) ∧
      whole.state.position = some (here + way.scale stretch) ∧
      whole.state.extruded - d.state.extruded =
        stretch * (stepped.state.extruded - d.state.extruded) ∧
      (stretch = 1 → stepped.remembering whole.state.previous = whole) := by
  intro halves stretch
  have hlength := Rotation.dot_self_pos hdelta
  obtain ⟨between, memory, hfirst, hsecond⟩ :=
    perform_halves hready hs hr hunit hlength translation translationFirst
  have hwhole := perform_transformation hready hs hr hunit hlength translation translationFirst
  refine ⟨_, between, _, _, hwhole, hfirst, hsecond, rfl, rfl, rfl, ?_, fun hone => ?_⟩
  · exact State.extrusionTo_scale hs _
      (ReferenceFrame.stretch_nonneg d.state.settings.frame delta translationFirst)
  · have hframe : d.state.settings.frame.stretch delta translationFirst = 1 := hone
    rw [hframe, Vector3.scale_one]
    rfl

/-- A device at the origin that reads motions in the tool frame, and extrudes. -/
noncomputable def inToolFrame : Device ℝ where
  ready := true
  state := { State.blank .empty with
    position := some .zero
    rotation := some .identity
    settings := { Settings.standard with frame := .tool, extrusionRate := 3 }
    extruding := true }
  stack := .empty

/-- A quarter of a turn and more with a quaternion of length five, then a step ahead. -/
theorem transformation_halves_fiveTimes :
    ∃ whole between stepped way,
      inToolFrame.perform (.transformation ⟨10, 0, 0⟩ ⟨0, 0, 3, 4⟩ true false) = .ok whole ∧
      inToolFrame.perform (.rotation ⟨0, 0, 3, 4⟩ true) = .ok between ∧
      between.perform (.translation ⟨10, 0, 0⟩ true) = .ok stepped ∧
      stepped.state.position = some (.zero + way) ∧
      whole.state.position = some (.zero + way.scale 25) ∧
      whole.state.extruded - inToolFrame.state.extruded =
        25 * (stepped.state.extruded - inToolFrame.state.extruded) := by
  have hunit : (Rotation.identity : Rotation ℝ).dot .identity = 1 := by
    simp [Rotation.dot, Rotation.identity]
  have hdelta : (⟨0, 0, 3, 4⟩ : Rotation ℝ) ≠ ⟨0, 0, 0, 0⟩ := by
    simp
  have hstretch : ReferenceFrame.tool.stretch ⟨0, 0, 3, 4⟩ false = 25 := by
    show (0 * 0 + 0 * 0 + 3 * 3 + 4 * 4 : ℝ) = 25
    norm_num
  obtain ⟨whole, between, stepped, way, hwhole, hfirst, hsecond, -, hposition, hstretched,
    hextruded, -⟩ := transformation_halves (d := inToolFrame) rfl rfl rfl hunit hdelta ⟨10, 0, 0⟩
      false
  have hframe : inToolFrame.state.settings.frame.stretch ⟨0, 0, 3, 4⟩ false = 25 := hstretch
  rw [hframe] at hstretched hextruded
  exact ⟨whole, between, stepped, way, hwhole, hfirst, hsecond, hposition, hstretched, hextruded⟩

/-- A quaternion of length two that turns nothing makes the way four times as long. -/
theorem not_halves_doubled :
    ∃ whole between stepped,
      inToolFrame.perform (.transformation ⟨1, 0, 0⟩ ⟨0, 0, 0, 2⟩ true false) = .ok whole ∧
      inToolFrame.perform (.rotation ⟨0, 0, 0, 2⟩ true) = .ok between ∧
      between.perform (.translation ⟨1, 0, 0⟩ true) = .ok stepped ∧
      whole.state.position = some ⟨4, 0, 0⟩ ∧ stepped.state.position = some ⟨1, 0, 0⟩ ∧
      whole.state.position ≠ stepped.state.position := by
  have hdelta : (0 : ℝ) < (⟨0, 0, 0, 2⟩ : Rotation ℝ).dot ⟨0, 0, 0, 2⟩ :=
    Rotation.dot_self_pos (by simp)
  have hwhole := perform_transformation (d := inToolFrame) rfl rfl rfl Rotation.dot_identity
    hdelta ⟨1, 0, 0⟩ false
  obtain ⟨between, memory, hfirst, hsecond⟩ := perform_halves (d := inToolFrame) rfl rfl rfl
    Rotation.dot_identity hdelta ⟨1, 0, 0⟩ false
  -- normalized, the quaternion is the rotation that moves nothing
  have hway : worldDisplacement .tool
      (rotatedBy .tool .identity (⟨0, 0, 0, 2⟩ : Rotation ℝ)).normalize ⟨1, 0, 0⟩ = ⟨1, 0, 0⟩ := by
    have hdoubled : (⟨0, 0, 0, 2⟩ : Rotation ℝ) = Rotation.identity.scale 2 := by
      simp [Rotation.scale, Rotation.identity]
    show (Rotation.identity * (⟨0, 0, 0, 2⟩ : Rotation ℝ)).normalize.turn ⟨1, 0, 0⟩ = ⟨1, 0, 0⟩
    rw [Rotation.identity_mul, hdoubled, Rotation.normalize_scale _ two_pos,
      Rotation.normalize_of_unit Rotation.dot_identity, Rotation.turn_identity]
  have hfour : (⟨1, 0, 0⟩ : Vector3 ℝ).scale (ReferenceFrame.tool.stretch ⟨0, 0, 0, 2⟩ false) =
      ⟨4, 0, 0⟩ := by
    simp only [Vector3.scale, ReferenceFrame.stretch, Rotation.dot]
    norm_num
  have hfar : some (Vector3.zero + (worldDisplacement .tool
      (rotatedBy .tool .identity (⟨0, 0, 0, 2⟩ : Rotation ℝ)).normalize ⟨1, 0, 0⟩).scale
        (ReferenceFrame.tool.stretch ⟨0, 0, 0, 2⟩ false)) = some ⟨4, 0, 0⟩ := by
    rw [hway, hfour, Vector3.zero_add]
  have hnear : some (Vector3.zero + worldDisplacement .tool
      (rotatedBy .tool .identity (⟨0, 0, 0, 2⟩ : Rotation ℝ)).normalize ⟨1, 0, 0⟩) =
        some ⟨1, 0, 0⟩ := by
    rw [hway, Vector3.zero_add]
  refine ⟨_, between, _, hwhole, hfirst, hsecond, hfar, hnear, fun hsame => ?_⟩
  have hequal := hfar.symm.trans (hsame.trans hnear)
  simp at hequal

end Device

end RobotMotion
