import RobotMotion.Device.Motion
import RobotMotion.Device.Tooling

/-!
# Devices

A device carries out commands one after the other. `Device.perform` gives the
device after a command or the reason why it was rejected; a rejected command
leaves nothing behind. A device carries out nothing before it knows where it
starts.
-/

namespace RobotMotion

/-- A device: its state, the settings put aside, and whether it was given a
starting pose. -/
structure Device (α : Type) where
  ready : Bool
  state : State α
  stack : SettingsStack α
deriving DecidableEq, Repr

namespace State

variable {α : Type} [Scalar α]

/-- The state after a command that does not touch the settings put aside. -/
def perform (s : State α) : Command α → Except Rejection (State α)
  | .setting which value relative =>
    let next := Scalar.nonNegative (Scalar.shifted relative (s.settings.quantity which) value)
    .ok { s with settings := s.settings.withQuantity which next }
  | .motionMode mode => .ok { s with settings := { s.settings with motion := mode } }
  | .referenceFrame frame => .ok { s with settings := { s.settings with frame := frame } }
  | .translation delta relative => s.translate delta relative
  | .rotation delta relative => s.rotate delta relative
  | .transformation translation rotation relative translationFirst =>
    s.transform translation rotation relative translationFirst
  | .axes joints relative => s.moveAxes joints relative
  | .externalAxis index value target relative => s.moveExternal index value target relative
  | .defineTool tool => .ok { s with tools := s.tools.insert tool.name tool }
  | .attachTool name => s.attachNamed name
  | .detachTool => s.detach
  | .writeDigital pin on _ => .ok { s with digital := s.digital.insert pin on }
  | .writeAnalog pin value _ => .ok { s with analog := s.analog.insert pin value }
  | .temperature part value _ relative =>
    let present := (s.temperatures.get? part).getD Scalar.zero
    let next := Scalar.nonNegative (Scalar.shifted relative present value)
    .ok { s with temperatures := s.temperatures.set part next }
  | .extrusion on => .ok { s with extruding := on }
  | .initialization on => .ok { s with running := on }
  | .pushSettings | .popSettings | .wait _ | .message _ | .comment _ | .customCode .. => .ok s

end State

namespace Device

variable {α : Type} [Scalar α]

/-- A device that knows its tools and nothing else. -/
def blank (tools : Registry (Tool α)) : Device α := ⟨false, .blank tools, .empty⟩

/-- State and settings put aside after a command. -/
def advance (d : Device α) : Command α → Except Rejection (State α × SettingsStack α)
  | .pushSettings => .ok (d.state, d.stack.push d.state.settings)
  | .popSettings =>
    match d.stack.pop? d.state.settings with
    | none => .error .emptySettingsStack
    | some (restored, stack) => .ok ({ d.state with settings := restored }, stack)
  | command => (d.state.perform command).map (·, d.stack)

/-- The device after a command. The state before it is remembered. -/
def perform (d : Device α) (command : Command α) : Except Rejection (Device α) :=
  if d.ready then
    (d.advance command).map fun (state, stack) =>
      { d with state := { state with previous := d.state.snapshot }, stack }
  else .error .notInitialized

/-- Why a starting pose cannot be taken. -/
inductive PoseError where
  /-- one of position and rotation is missing -/
  | halfPose
  /-- there is neither a pose nor joint angles -/
  | nothing
deriving DecidableEq, Repr

/-- The device at a starting pose. The length extruded before stays remembered. -/
def start (d : Device α) (pose : InitialPose α) (settings : Settings α) :
    Except PoseError (Device α) :=
  if pose.position.isSome != pose.rotation.isSome then .error .halfPose
  else if pose.position.isNone && pose.axes.isNone then .error .nothing
  else
    let rotation := pose.rotation.map Rotation.normalize
    .ok { d with
      ready := true
      state := { d.state with
        position := pose.position
        rotation := rotation
        axes := pose.axes
        cartesianExternal := pose.externalAxes
        jointExternal := pose.externalAxes
        settings := settings
        previous := ⟨pose.position, rotation, pose.axes, d.state.previous.extruded⟩ } }

end Device

end RobotMotion
