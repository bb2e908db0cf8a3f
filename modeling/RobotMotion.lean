import RobotMotion.Action.Json
import RobotMotion.Main
import RobotMotion.Proofs.Fleet.Chain
import RobotMotion.Proofs.Fleet.Place
import RobotMotion.Proofs.Program.Layout
import RobotMotion.Proofs.Queue.History
import RobotMotion.Proofs.Session.Agreement
import RobotMotion.Proofs.Wire.Acknowledgment
import RobotMotion.Proofs.Wire.Mirror
import RobotMotion.Proofs.Wire.Realization
import RobotMotion.Proofs.Device.Brackets
import RobotMotion.Proofs.Fleet.Brackets
import RobotMotion.Proofs.Wire.Words
import RobotMotion.Proofs.Decimal.Numeral
import RobotMotion.Proofs.Text.Pieces
import RobotMotion.Proofs.Wire.Framing
import RobotMotion.Proofs.Program.Instructions
import RobotMotion.Proofs.Wire.Motions
import RobotMotion.Proofs.Json.Saving
import RobotMotion.Proofs.Program.Inert
import RobotMotion.Proofs.Program.LineBreaks
import RobotMotion.Proofs.Program.Tools
import RobotMotion.Proofs.Device.Swapping
import RobotMotion.Proofs.Device.Mounting
import RobotMotion.Proofs.Device.Halves
import RobotMotion.Proofs.Program.Extrusion
import RobotMotion.Proofs.Queue.Block
import RobotMotion.Proofs.Fleet.CatchUp
import RobotMotion.Proofs.Program.Settings
import RobotMotion.Proofs.Program.Targets
import RobotMotion.Proofs.Program.Acceleration
import RobotMotion.Proofs.Program.ToolFrames
import RobotMotion.Proofs.Program.Names
import RobotMotion.Proofs.Fleet.Buffering
import RobotMotion.Proofs.Program.Block
import RobotMotion.Proofs.Wire.FixedPoint
import RobotMotion.Proofs.Program.Literals
import RobotMotion.Proofs.Tool.Library
import RobotMotion.Proofs.Program.Annotations
import RobotMotion.Proofs.Wire.Outputs
import RobotMotion.Proofs.Device.NonNegative
import RobotMotion.Proofs.Fleet.NonNegative
import RobotMotion.Proofs.Program.Completeness
import RobotMotion.Proofs.Wire.Moves
import RobotMotion.Proofs.Wire.Unaddressable
import RobotMotion.Proofs.Text.Reading
import RobotMotion.Proofs.Action.Reading
import RobotMotion.Proofs.Text.Blanks
import RobotMotion.Proofs.Wire.Echo
import RobotMotion.Proofs.Program.DefaultAcceleration
import RobotMotion.Proofs.Program.SafeNames
import RobotMotion.Proofs.Decimal.Places
import RobotMotion.Proofs.Program.Quoting
