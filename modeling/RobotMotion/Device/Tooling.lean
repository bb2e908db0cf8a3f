import RobotMotion.Device.Rejection
import RobotMotion.Device.State

/-!
# Attaching and detaching tools

With a cartesian pose, attaching a tool moves the pose from the flange to the
tool center point, and detaching moves it back. Without a pose the tool is only
recorded.
-/

namespace RobotMotion

variable {α : Type} [Scalar α]

/-- The flange pose that puts a tool center point at a pose. -/
def Tool.flangePose (tool : Tool α) (position : Vector3 α) (rotation : Rotation α) :
    Vector3 α × Rotation α :=
  let flange := (rotation * tool.tcpOrientation.conjugate).normalize
  (position - flange.turn tool.tcpPosition, flange)

/-- The pose of the tool center point on a flange at a pose. -/
def Tool.tipPose (tool : Tool α) (position : Vector3 α) (rotation : Rotation α) :
    Vector3 α × Rotation α :=
  (position + rotation.turn tool.tcpPosition, (rotation * tool.tcpOrientation).normalize)

namespace State

/-- The state with another cartesian pose and everything else kept. -/
def withPose (s : State α) (pose : Vector3 α × Rotation α) : State α :=
  { s with position := some pose.1, rotation := some pose.2 }

/-- The flange pose, given the pose of what is attached now. -/
def flangePose (s : State α) (position : Vector3 α) (rotation : Rotation α) :
    Vector3 α × Rotation α :=
  match s.tool with
  | some tool => tool.flangePose position rotation
  | none => (position, rotation)

/-- Attach a tool in place of the present one. -/
def attach (s : State α) (tool : Tool α) : State α :=
  let moved :=
    match s.pose? with
    | some (position, rotation) =>
      let flange := s.flangePose position rotation
      s.withPose (tool.tipPose flange.1 flange.2)
    | none => s
  { moved with tool := some tool }

/-- Attach a tool by name. -/
def attachNamed (s : State α) (name : String) : Except Rejection (State α) :=
  match s.tools.find? name with
  | none => .error (.unknownTool name)
  | some tool => .ok (s.attach tool)

/-- Detach the present tool. -/
def detach (s : State α) : Except Rejection (State α) :=
  match s.tool with
  | none => .error .noToolAttached
  | some tool =>
    let moved :=
      match s.pose? with
      | some (position, rotation) => s.withPose (tool.flangePose position rotation)
      | none => s
    .ok { moved with tool := none }

end State

end RobotMotion
