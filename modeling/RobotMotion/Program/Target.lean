import RobotMotion.Decimal.Fixed
import RobotMotion.Device.State

/-!
# Targets of motions

Where a motion ends: written where it is used, or declared under a number.
Shared by the dialects that can declare targets.
-/

namespace RobotMotion.Program

/-- A target in an instruction. -/
inductive Place (τ : Type) where
  /-- the target itself -/
  | inline (target : τ)
  /-- the declared target of this number -/
  | named (index : Nat)

/-- The name of a declared target. -/
def targetName (index : Nat) : String := "target" ++ Decimal.natural index

/-- The text of a target in an instruction. -/
def Place.text {τ : Type} (render : τ → String) : Place τ → String
  | .inline target => render target
  | .named index => targetName index

/-- Milliseconds in seconds, with three places. -/
def secondsText (millis : Nat) : String := Decimal.fixed (Float.ofNat millis / 1000.0) 3

/-- The values of six external axes, with a text for those that are unset. -/
def externalTexts (axes : Option (ExternalAxes Float)) (render : Option Float → String) :
    List String :=
  (axes.getD .empty).toList.map render

end RobotMotion.Program
