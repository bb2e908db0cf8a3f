import RobotMotion.Json.Record
import RobotMotion.Tool.Basic

/-!
# Tools in JSON

A tool as a record of which every field is required. The orientation is taken
as it is written.
-/

namespace RobotMotion.Tool

/-- The fields of a tool in their order. -/
def fieldNames : List String :=
  ["name", "tcp_position", "tcp_orientation", "weight", "center_of_gravity"]

/-- A tool as JSON. -/
def toJson (t : Tool Float) : Json :=
  .object
    [ ("name", .text t.name),
      ("tcp_position", .ofReals t.tcpPosition.toList),
      ("tcp_orientation", .ofReals t.tcpOrientation.toList),
      ("weight", .real t.weight),
      ("center_of_gravity", .ofReals t.centerOfGravity.toList) ]

/-- A tool read from JSON. -/
def ofJson? (j : Json) : Option (Tool Float) := do
  let fields ← j.record? fieldNames
  return {
    name := ← Json.required fields "name" Json.string?
    tcpPosition := ← Json.required fields "tcp_position" Json.vector3?
    tcpOrientation := ← Json.required fields "tcp_orientation" Json.rotation?
    weight := ← Json.required fields "weight" Json.real?
    centerOfGravity := ← Json.required fields "center_of_gravity" Json.vector3? }

end RobotMotion.Tool
