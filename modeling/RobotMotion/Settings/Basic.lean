import RobotMotion.Scalar

/-!
# Motion settings

The settings in force when a motion is carried out: four quantities, the way of
interpolating, and the frame that relative motions are read in.
-/

namespace RobotMotion

/-- How the robot moves between two targets. -/
inductive MotionType where
  /-- along a straight line -/
  | linear
  /-- joint by joint -/
  | joint
deriving DecidableEq, Repr

/-- The word for a motion type. -/
def MotionType.text : MotionType → String
  | .linear => "linear"
  | .joint => "joint"

/-- The frame that relative motions are read in. -/
inductive ReferenceFrame where
  /-- the fixed frame of the cell -/
  | world
  /-- the frame of the tool -/
  | tool
deriving DecidableEq, Repr

/-- The word for a reference frame. -/
def ReferenceFrame.text : ReferenceFrame → String
  | .world => "world"
  | .tool => "local"

/-- The settings that are numbers. -/
inductive Quantity where
  /-- speed of the tool center point in mm/s -/
  | speed
  /-- acceleration of the tool center point in mm/s²; zero leaves it to the controller -/
  | acceleration
  /-- blend radius in mm -/
  | precision
  /-- extruded material per travelled mm -/
  | extrusionRate
deriving DecidableEq, Repr

/-- The settings of a device. -/
structure Settings (α : Type) where
  speed : α
  acceleration : α
  precision : α
  motion : MotionType
  frame : ReferenceFrame
  extrusionRate : α
deriving DecidableEq, Repr

/-- A setting together with the value it takes. -/
inductive SettingChange (α : Type) where
  /-- a quantity takes a value -/
  | quantity (which : Quantity) (value : α)
  /-- the motion type is chosen -/
  | motion (type : MotionType)
  /-- the reference frame is chosen -/
  | frame (frame : ReferenceFrame)
deriving DecidableEq, Repr

namespace Settings

variable {α : Type}

/-- The settings that a device starts with. -/
def standard [Scalar α] : Settings α where
  speed := Scalar.ofNat 20
  acceleration := Scalar.zero
  precision := Scalar.ofNat 5
  motion := .linear
  frame := .world
  extrusionRate := Scalar.zero

/-- The value of a quantity. -/
def quantity (s : Settings α) : Quantity → α
  | .speed => s.speed
  | .acceleration => s.acceleration
  | .precision => s.precision
  | .extrusionRate => s.extrusionRate

/-- The settings with one quantity replaced. -/
def withQuantity (s : Settings α) (which : Quantity) (value : α) : Settings α :=
  match which with
  | .speed => { s with speed := value }
  | .acceleration => { s with acceleration := value }
  | .precision => { s with precision := value }
  | .extrusionRate => { s with extrusionRate := value }

@[simp] theorem quantity_withQuantity (s : Settings α) (a b : Quantity) (value : α) :
    (s.withQuantity a value).quantity b = if b = a then value else s.quantity b := by
  cases a <;> cases b <;> rfl

/-- The settings that differ from earlier ones, with their new values, in a
fixed order. Numbers are compared as the machine compares them, so a zero does
not differ from a zero of the other sign. -/
def changesSince [BEq α] (after before : Settings α) : List (SettingChange α) :=
  let quantity (q : Quantity) : List (SettingChange α) :=
    if after.quantity q == before.quantity q then [] else [.quantity q (after.quantity q)]
  quantity .speed ++ quantity .acceleration ++ quantity .precision
    ++ (if after.motion = before.motion then [] else [.motion after.motion])
    ++ (if after.frame = before.frame then [] else [.frame after.frame])
    ++ quantity .extrusionRate

end Settings

end RobotMotion
