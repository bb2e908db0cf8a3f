import RobotMotion.Action.Json
import RobotMotion.Proofs.Action.Calls

/-!
# What an instruction tells

What an instruction shows of a command is `Command.inPrint`: the command with the texts of
its numbers in their place, and with the axis and the angle of every rotation. All else is
there as it is. The verb of the call and its arguments give that back
(`Command.read?_call`), so commands with one instruction are the same in print
(`Command.inPrint_of_instruction_eq`).
-/

namespace RobotMotion

/-! ### What is shown of a command -/

/-- The components of a vector as they are shown. -/
def Vector3.inPrint (v : Vector3 Float) : Vector3 String :=
  ⟨Decimal.trimmed v.x, Decimal.trimmed v.y, Decimal.trimmed v.z⟩

/-- A rotation as it is shown: its axis, and its angle in degrees in the last place. -/
def Rotation.inPrint (q : Rotation Float) : Rotation String :=
  let (axis, angle) := q.axisAngleDegrees
  ⟨Decimal.trimmed axis.x, Decimal.trimmed axis.y, Decimal.trimmed axis.z, Decimal.trimmed angle⟩

/-- Joint angles as they are shown. -/
def Joints.inPrint (j : Joints Float) : Joints String := ⟨j.values.map Decimal.trimmed⟩

/-- A tool as it is shown. -/
def Tool.inPrint (tool : Tool Float) : Tool String where
  name := tool.name
  tcpPosition := tool.tcpPosition.inPrint
  tcpOrientation := tool.tcpOrientation.inPrint
  weight := Decimal.trimmed tool.weight
  centerOfGravity := tool.centerOfGravity.inPrint

namespace Command

/-- A command with texts for numbers, and for rotations their axes and angles. The order of
a transformation is shown for the relative form only, where it matters. -/
def inPrint : Command Float → Command String
  | .setting which value relative => .setting which (Decimal.trimmed value) relative
  | .motionMode mode => .motionMode mode
  | .referenceFrame frame => .referenceFrame frame
  | .pushSettings => .pushSettings
  | .popSettings => .popSettings
  | .translation delta relative => .translation delta.inPrint relative
  | .rotation q relative => .rotation q.inPrint relative
  | .transformation v q relative translationFirst =>
    .transformation v.inPrint q.inPrint relative (!relative || translationFirst)
  | .axes joints relative => .axes joints.inPrint relative
  | .externalAxis index value target relative =>
    .externalAxis index (Decimal.trimmed value) target relative
  | .defineTool tool => .defineTool tool.inPrint
  | .attachTool name => .attachTool name
  | .detachTool => .detachTool
  | .writeDigital pin on toolPin => .writeDigital pin on toolPin
  | .writeAnalog pin value toolPin => .writeAnalog pin (Decimal.trimmed value) toolPin
  | .wait millis => .wait millis
  | .message text => .message text
  | .comment text => .comment text
  | .temperature part value waits relative =>
    .temperature part (Decimal.trimmed value) waits relative
  | .extrusion on => .extrusion on
  | .initialization on => .initialization on
  | .customCode code isDeclaration => .customCode code isDeclaration

/-! ### Reading a call -/

/-- A flag in the text of a call. -/
def flag? : String → Option Bool
  | "true" => some true
  | "false" => some false
  | _ => none

/-- A whole number in the text of a call. -/
def whole? (word : String) : Option Nat := Text.digits? word.toList

/-- Whole numbers are read from their digits. -/
theorem whole?_render (n : Nat) : whole? (Argument.whole n).render = some n := by
  rw [Argument.render, whole?, Decimal.natural, String.toList_ofList, Text.digits?_toDigits]

/-- Six joint angles. -/
def joints? (words : List String) : Option (Joints String) :=
  if h : words.length = 6 then some ⟨⟨words.toArray, h⟩⟩ else none

open Argument (Read)

/-- The word that an argument is. -/
def word? : Read → Option String
  | .word word => some word
  | .quoted _ => none

/-- The stems of the verbs that have a relative and an absolute form. -/
def stems : List String :=
  ["Speed", "Acceleration", "Precision", "ExtrusionRate", "Move", "Rotate", "Transform", "Axes",
    "ExternalAxis", "Temperature"]

/-- The stem of a verb, and whether the verb is relative. -/
def form (v : String) : String × Bool :=
  match stems.find? (verb · false = v) with
  | some stem => (stem, false)
  | none => (v, true)

/-- The command of a call by the stem of its verb. -/
def readCall? (relative : Bool) : String → List Read → Option (Command String)
  | "Speed", [.word value] => some (.setting .speed value relative)
  | "Acceleration", [.word value] => some (.setting .acceleration value relative)
  | "Precision", [.word value] => some (.setting .precision value relative)
  | "ExtrusionRate", [.word value] => some (.setting .extrusionRate value relative)
  | "MotionMode", [.quoted mode] => (MotionType.ofWord? mode).map .motionMode
  | "CoordinateSystem", [.quoted frame] => (ReferenceFrame.ofWord? frame).map .referenceFrame
  | "PushSettings", [] => some .pushSettings
  | "PopSettings", [] => some .popSettings
  | "Move", [.word x, .word y, .word z] => some (.translation ⟨x, y, z⟩ relative)
  | "Rotate", [.word x, .word y, .word z, .word angle] =>
    some (.rotation ⟨x, y, z, angle⟩ relative)
  | "Transform", .word x :: .word y :: .word z :: .word ax :: .word ay :: .word az ::
      .word angle :: order =>
    some (.transformation ⟨x, y, z⟩ ⟨ax, ay, az, angle⟩ relative order.isEmpty)
  | "Axes", angles => do
    let joints ← joints? (← angles.mapM word?)
    return .axes joints relative
  | "ExternalAxis", [.word index, .word value, .quoted target] => do
    return .externalAxis (← whole? index) value (← AxesTarget.ofWord? target) relative
  | "DefineTool", [.quoted name, .word x, .word y, .word z, .word ax, .word ay, .word az,
      .word angle, .word weight, .word cx, .word cy, .word cz] =>
    some (.defineTool ⟨name, ⟨x, y, z⟩, ⟨ax, ay, az, angle⟩, weight, ⟨cx, cy, cz⟩⟩)
  | "AttachTool", [.quoted name] => some (.attachTool name)
  | "DetachTool", [] => some .detachTool
  | "WriteDigital", [.quoted pin, .word on, .word toolPin] => do
    return .writeDigital pin (← flag? on) (← flag? toolPin)
  | "WriteAnalog", [.quoted pin, .word value, .word toolPin] => do
    return .writeAnalog pin value (← flag? toolPin)
  | "Wait", [.word millis] => (whole? millis).map .wait
  | "Message", [.quoted text] => some (.message text)
  | "Comment", [.quoted text] => some (.comment text)
  | "Temperature", [.word value, .quoted part, .word waits] => do
    return .temperature (← HeatedPart.ofWord? part) value (← flag? waits) relative
  | "Extrude", [.word on] => (flag? on).map .extrusion
  | "Initialize", [] => some (.initialization true)
  | "Terminate", [] => some (.initialization false)
  | "CustomCode", [.quoted code, .word isDeclaration] =>
    (flag? isDeclaration).map (.customCode code)
  | _, _ => none

/-- The command of a call, as far as that is shown. -/
def read? (v : String) (arguments : List Read) : Option (Command String) :=
  readCall? (form v).2 (form v).1 arguments

/-- A verb gives back its stem and its form: no stem is a stem with `To` behind it. -/
theorem form_verb {stem : String} (h : stem ∈ stems) (relative : Bool) :
    form (verb stem relative) = (stem, relative) := by
  revert stem
  cases relative <;> decide

/-- Numbers are read as words, each as it is shown. -/
theorem mapM_word?_read (values : List Float) :
    ((values.map Argument.number).map Argument.read).mapM word? =
      some (values.map Decimal.trimmed) := by
  induction values with
  | nil => rfl
  | cons x rest ih =>
    rw [List.map_cons, List.map_cons, List.mapM_cons, ih]
    rfl

/-- Six words are read as the joint angles that they show. -/
theorem joints?_inPrint (j : Joints Float) :
    joints? (j.toList.map Decimal.trimmed) = some j.inPrint := by
  have hlength : (j.toList.map Decimal.trimmed).length = 6 := by simp
  have hvalues : (j.toList.map Decimal.trimmed).toArray =
      (j.values.map Decimal.trimmed).toArray := by
    rw [Joints.toList, Vector.toArray_map, ← List.map_toArray]
    rfl
  rw [joints?, dif_pos hlength]
  exact congrArg (fun values => some (Joints.mk values)) (Vector.toArray_inj.mp hvalues)

/-- **A call reads back as its command**, as far as that is shown. -/
theorem read?_call (c : Command Float) :
    read? c.call.verb (c.call.arguments.map Argument.read) = some c.inPrint := by
  have hread {stem : String} (h : stem ∈ stems) (relative : Bool) (arguments : List Read) :
      read? (verb stem relative) arguments = readCall? relative stem arguments := by
    rw [read?, form_verb h]
  cases c with
  -- where the verb has two forms the stem is found first, and then the arguments are read
  | setting which value relative =>
    rw [call, hread (by cases which <;> decide)]
    cases which <;> rfl
  | translation | rotation =>
    rw [call, hread (by decide)]
    rfl
  | transformation v q relative translationFirst =>
    rw [call, hread (by decide)]
    cases relative <;> cases translationFirst <;> rfl
  | axes joints relative =>
    rw [call, hread (by decide)]
    show (((joints.toList.map Argument.number).map Argument.read).mapM word?).bind _ = _
    rw [mapM_word?_read]
    show (joints? (joints.toList.map Decimal.trimmed)).bind _ = _
    rw [joints?_inPrint]
    rfl
  | externalAxis index value target relative =>
    rw [call, hread (by decide)]
    show (whole? (Argument.whole index).render).bind _ = _
    rw [whole?_render]
    cases target <;> rfl
  | temperature part value waits relative =>
    rw [call, hread (by decide)]
    cases part <;> cases waits <;> rfl
  | motionMode mode => cases mode <;> rfl
  | referenceFrame frame => cases frame <;> rfl
  | writeDigital pin on toolPin => cases on <;> cases toolPin <;> rfl
  | writeAnalog pin value flag | customCode code flag => cases flag <;> rfl
  | extrusion on | initialization on => cases on <;> rfl
  | wait millis =>
    show (whole? (Argument.whole millis).render).map _ = _
    rw [whole?_render]
    rfl
  | _ => rfl

theorem isWord_verb {stem : String} (h : stem ∈ stems) (relative : Bool) :
    Argument.IsWord (verb stem relative) := by
  revert stem
  cases relative <;> decide

/-- The verb of a call is a word. -/
theorem isWord_verb_call (c : Command Float) : Argument.IsWord c.call.verb := by
  cases c with
  | setting which => exact isWord_verb (by cases which <;> decide) _
  | translation | rotation | transformation | axes | externalAxis | temperature =>
    exact isWord_verb (by decide) _
  | initialization on => cases on <;> decide
  | _ =>
    dsimp only [call]
    decide

/-- **Commands with one instruction are the same in print.** -/
theorem inPrint_of_instruction_eq {c e : Command Float} (h : c.instruction = e.instruction) :
    c.inPrint = e.inPrint := by
  obtain ⟨hverb, harguments⟩ :=
    Call.read_of_render_eq c.isWord_verb_call e.isWord_verb_call h
  have hread := c.read?_call
  rw [hverb, harguments, e.read?_call] at hread
  exact (Option.some.inj hread).symm

/-- A small step to the side. -/
def sideways (step : Float) : Command Float := .translation ⟨step, 0, 0⟩ true

/-- The noise of a sum does not show. -/
theorem inPrint_of_instruction_eq_sideways :
    sideways (0.1 + 0.2) ≠ sideways 0.3 ∧
      (sideways (0.1 + 0.2)).instruction = (sideways 0.3).instruction ∧
      (sideways (0.1 + 0.2)).inPrint = (sideways 0.3).inPrint := by
  have hsame : (sideways (0.1 + 0.2)).instruction = (sideways 0.3).instruction := by
    decide +kernel
  exact ⟨by decide +kernel, hsame, inPrint_of_instruction_eq hsame⟩

end Command

end RobotMotion
