import RobotMotion.Device.Rejection
import RobotMotion.Device.State

/-!
# Motions

What a motion does to the state. Every cartesian motion ends in `State.moveTo`,
which accounts for the extruded material, brings the rotation to unit length
and forgets the joint angles.
-/

namespace RobotMotion.State

variable {α : Type} [Scalar α]

/-- The material that a motion to a point extrudes. -/
def extrusionTo (s : State α) (position : Vector3 α) : α :=
  match s.extruding, s.position with
  | true, some here => s.extruded + s.settings.extrusionRate * here.distance position
  | _, _ => s.extruded

/-- Go to a cartesian pose. -/
def moveTo (s : State α) (position : Vector3 α) (rotation : Rotation α) : State α :=
  { s with
    extruded := s.extrusionTo position
    position := some position
    rotation := some rotation.normalize
    axes := none }

/-- A displacement as the reference frame reads it, seen from the world. -/
def worldDisplacement (frame : ReferenceFrame) (rotation : Rotation α) (delta : Vector3 α) :
    Vector3 α :=
  match frame with
  | .world => delta
  | .tool => rotation.turn delta

/-- A rotation followed by a further one, as the reference frame reads it. -/
def rotatedBy (frame : ReferenceFrame) (rotation delta : Rotation α) : Rotation α :=
  match frame with
  | .world => delta * rotation
  | .tool => rotation * delta

/-- Move the tool center point and keep its rotation. -/
def translate (s : State α) (delta : Vector3 α) (relative : Bool) :
    Except Rejection (State α) :=
  if relative then
    match s.pose? with
    | none => .error (.noAbsolutePose .translation)
    | some (position, rotation) =>
      .ok (s.moveTo (position + worldDisplacement s.settings.frame rotation delta) rotation)
  else
    match s.rotation with
    | none => .error .missingRotation
    | some rotation => .ok (s.moveTo delta rotation)

/-- Turn the tool and keep its center point in place. -/
def rotate (s : State α) (delta : Rotation α) (relative : Bool) : Except Rejection (State α) :=
  if relative then
    match s.pose? with
    | none => .error (.noAbsolutePose .rotation)
    | some (position, rotation) =>
      .ok (s.moveTo position (rotatedBy s.settings.frame rotation delta))
  else
    match s.position with
    | none => .error .missingPosition
    | some position => .ok (s.moveTo position delta)

/-- Move and turn at once. In the world frame the displacement does not depend
on the rotation, so the order matters in the tool frame only. -/
def transform (s : State α) (translation : Vector3 α) (delta : Rotation α) (relative : Bool)
    (translationFirst : Bool) : Except Rejection (State α) :=
  if relative then
    match s.pose? with
    | none => .error (.noAbsolutePose .transformation)
    | some (position, rotation) =>
      let rotated := rotatedBy s.settings.frame rotation delta
      let base := if translationFirst then rotation else rotated
      .ok (s.moveTo (position + worldDisplacement s.settings.frame base translation) rotated)
  else .ok (s.moveTo translation delta)

/-- Go to joint angles, which forgets the cartesian pose. -/
def moveAxes (s : State α) (joints : Joints α) (relative : Bool) : Except Rejection (State α) :=
  let goTo (next : Joints α) : State α :=
    { s with axes := some next, position := none, rotation := none }
  if relative then
    match s.axes with
    | none => .error .noAbsoluteAxes
    | some present => .ok (goTo (present + joints))
  else .ok (goTo joints)

/-- One external axis set in a set of axes that may not exist yet. -/
def updateExternal (axes : Option (ExternalAxes α)) (index : Nat) (value : α)
    (relative : Bool) : Except Rejection (ExternalAxes α) :=
  let present := axes.getD .empty
  if relative then
    match present.get? index with
    | none => .error (.noAbsoluteExternalAxis index)
    | some old => .ok (present.set index (old + value))
  else .ok (present.set index value)

/-- A set of external axes after a command, which may not be meant for it. -/
def updateTargeted (targeted : Bool) (axes : Option (ExternalAxes α)) (index : Nat) (value : α)
    (relative : Bool) : Except Rejection (Option (ExternalAxes α)) :=
  if targeted then (updateExternal axes index value relative).map some else .ok axes

/-- Set one external axis, in the cartesian set first and then in the joint
set; nothing is set unless every targeted set accepts the value. -/
def moveExternal (s : State α) (index : Nat) (value : α) (target : AxesTarget)
    (relative : Bool) : Except Rejection (State α) :=
  if ExternalAxes.inRange index then do
    let cartesian ←
      updateTargeted target.hasCartesian s.cartesianExternal index value relative
    let joint ← updateTargeted target.hasJoint s.jointExternal index value relative
    return { s with cartesianExternal := cartesian, jointExternal := joint }
  else .error (.externalAxisIndex index)

end RobotMotion.State
