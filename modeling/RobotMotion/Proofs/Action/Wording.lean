import RobotMotion.Action.Description
import RobotMotion.Action.Instruction
import RobotMotion.Proofs.Text.Lines

/-!
# Commands on one line

A command holds texts that users chose: the names of tools and outputs, messages,
comments and custom code (`Command.texts`). Whatever else a command is written with stands
on one line, so where these texts are unbroken, the call that produces the command and its
description are unbroken too.
-/

namespace RobotMotion

open Text (Unbroken unbroken_append)

/-- The texts in a command that users chose. -/
def Command.texts {α : Type} : Command α → List String
  | .defineTool tool => [tool.name]
  | .attachTool name => [name]
  | .writeDigital pin .. | .writeAnalog pin .. => [pin]
  | .message text | .comment text => [text]
  | .customCode code _ => [code]
  | _ => []

/-- Whether all these texts stand on one line. -/
def Command.Unbroken {α : Type} (command : Command α) : Prop :=
  ∀ s ∈ command.texts, Text.Unbroken s

instance {α : Type} (command : Command α) : Decidable command.Unbroken :=
  List.decidableBAll Text.Unbroken command.texts

/-! ### Calls -/

/-- Whether an argument stands on one line: numbers always do. -/
def Argument.Unbroken : Argument → Prop
  | .text s => Text.Unbroken s
  | _ => True

theorem Argument.Unbroken.render {a : Argument} (h : a.Unbroken) : Text.Unbroken a.render := by
  cases a with
  | number x => exact Text.unbroken_trimmed x
  | whole n => exact Text.unbroken_natural n
  | flag b => cases b <;> decide
  | text s => exact Text.Unbroken.quoted h

/-- A call stands on one line if its verb and its arguments do. -/
theorem Call.unbroken_render {call : Call} (hverb : Unbroken call.verb)
    (h : ∀ a ∈ call.arguments, a.Unbroken) : Unbroken call.render := by
  have hopen : Unbroken "(" := by decide
  have hclose : Unbroken ");" := by decide
  have harguments : Unbroken
      (String.intercalate ", " (call.arguments.map Argument.render)) := by
    refine Text.unbroken_intercalate (by decide) fun t ht => ?_
    obtain ⟨a, ha, rfl⟩ := List.mem_map.mp ht
    exact (h a ha).render
  rw [Call.render]
  simp only [unbroken_append]
  exact ⟨⟨⟨hverb, hopen⟩, harguments⟩, hclose⟩

namespace Command

/-- A verb is a stem, behind which a command to a place has `To`. -/
theorem unbroken_verb {stem : String} (h : Text.Unbroken stem) (relative : Bool) :
    Text.Unbroken (verb stem relative) := by
  have hto : Text.Unbroken "To" := by decide
  cases relative with
  | true => exact h
  | false => exact unbroken_append.mpr ⟨h, hto⟩

theorem unbroken_vectorArguments (v : Vector3 Float) : ∀ a ∈ vectorArguments v, a.Unbroken := by
  intro a ha
  obtain ⟨x, -, rfl⟩ := List.mem_map.mp ha
  trivial

theorem unbroken_rotationArguments (q : Rotation Float) :
    ∀ a ∈ rotationArguments q, a.Unbroken := by
  intro a ha
  rcases List.mem_append.mp ha with ha | ha
  · exact unbroken_vectorArguments _ a ha
  · rw [List.mem_singleton.mp ha]
    trivial

/-- No verb holds a text that a user chose, so verbs need no condition. -/
theorem unbroken_call_verb (command : Command Float) : Text.Unbroken command.call.verb := by
  cases command with
  | setting q value relative => exact unbroken_verb (by cases q <;> decide) relative
  | translation | rotation | transformation | axes | externalAxis | temperature =>
    exact unbroken_verb (by decide) _
  | initialization on => cases on <;> decide
  | _ =>
    dsimp only [call]
    decide

/-- Arguments are numbers, flags, words of the language, and the texts that a user chose. -/
theorem unbroken_call_arguments {command : Command Float} (h : command.Unbroken) :
    ∀ a ∈ command.call.arguments, a.Unbroken := by
  have hvector := unbroken_vectorArguments
  have hrotation := unbroken_rotationArguments
  have hflag (b : Bool) : ∀ a ∈ (if b then [Argument.flag false] else []), a.Unbroken := by
    cases b <;> simp [Argument.Unbroken]
  cases command with
  | setting => simp [call, Argument.Unbroken]
  -- a mode, a frame and the like are words out of a list, looked through one by one
  | motionMode mode => cases mode <;> simp +decide [call, Argument.Unbroken, MotionType.text]
  | referenceFrame frame =>
    cases frame <;> simp +decide [call, Argument.Unbroken, ReferenceFrame.text]
  | translation delta relative => exact hvector delta
  | rotation q relative => exact hrotation q
  | transformation v q relative first =>
    exact List.forall_mem_append.mpr
      ⟨List.forall_mem_append.mpr ⟨hvector v, hrotation q⟩, hflag _⟩
  | axes joints relative => simp [call, Argument.Unbroken]
  | externalAxis index value target relative =>
    cases target <;> simp +decide [call, Argument.Unbroken, AxesTarget.text]
  | defineTool tool =>
    have hname := h tool.name List.mem_cons_self
    simp only [call, List.forall_mem_append, List.forall_mem_singleton]
    exact ⟨⟨⟨⟨hname, hvector _⟩, hrotation _⟩, trivial⟩, hvector _⟩
  | temperature part value waits relative =>
    cases part <;> simp +decide [call, Argument.Unbroken, HeatedPart.text]
  | attachTool | writeDigital | writeAnalog | message | comment | customCode =>
    simpa [call, Argument.Unbroken] using h _ List.mem_cons_self
  | _ => simp [call, Argument.Unbroken]

/-- **The call that produces a command stands on one line if its texts do.** -/
theorem unbroken_instruction {command : Command Float} (h : command.Unbroken) :
    Text.Unbroken command.instruction :=
  command.call.unbroken_render command.unbroken_call_verb (unbroken_call_arguments h)

/-! ### Descriptions -/

/-- Numbers in brackets stand on one line. -/
theorem unbroken_bracketed (values : List Float) :
    Text.Unbroken ("[" ++ String.intercalate ", " (values.map Decimal.plain) ++ "]") := by
  have hopen : Text.Unbroken "[" := by decide
  have hclose : Text.Unbroken "]" := by decide
  simp only [unbroken_append]
  refine ⟨⟨hopen, Text.unbroken_intercalate (by decide) fun t ht => ?_⟩, hclose⟩
  obtain ⟨x, -, rfl⟩ := List.mem_map.mp ht
  exact Text.unbroken_plain x

theorem unbroken_vector_text (v : Vector3 Float) : Text.Unbroken v.text :=
  unbroken_bracketed v.toList

theorem unbroken_joints_text (j : Joints Float) : Text.Unbroken j.text :=
  unbroken_bracketed j.toList

theorem unbroken_degreesAround (q : Rotation Float) : Text.Unbroken (degreesAround q) := by
  have haround : Text.Unbroken " deg around " := by decide
  rw [degreesAround]
  simp only [unbroken_append]
  exact ⟨⟨Text.unbroken_trimmed _, haround⟩, unbroken_vector_text _⟩

/-- **The description of a command stands on one line if its texts do.** -/
theorem unbroken_description {command : Command Float} (h : command.Unbroken) :
    Text.Unbroken command.description := by
  cases command with
  -- what varies between the kinds of a command are fixed words, so each kind is a closed check
  -- behind the numbers
  | setting q value relative =>
    cases q <;> cases relative <;>
      · dsimp only [description, quantityWords]
        simp only [unbroken_append, Text.unbroken_trimmed, and_true,
          Bool.false_eq_true, if_false, if_true]
        decide
  | motionMode mode => cases mode <;> decide
  | referenceFrame frame => cases frame <;> decide
  | translation delta relative =>
    cases relative <;>
      · dsimp only [description]
        simp only [unbroken_append, unbroken_vector_text, and_true,
          Bool.false_eq_true, if_false, if_true]
        decide
  | rotation q relative =>
    cases relative <;>
      · dsimp only [description]
        simp only [unbroken_append, unbroken_degreesAround, and_true,
          Bool.false_eq_true, if_false, if_true]
        decide
  | transformation v q relative =>
    cases relative <;>
      · dsimp only [description]
        simp only [unbroken_append, unbroken_vector_text, unbroken_degreesAround,
          and_true, Bool.false_eq_true, if_false, if_true]
        decide
  | axes joints relative =>
    cases relative <;>
      · dsimp only [description]
        simp only [unbroken_append, unbroken_joints_text, and_true,
          Bool.false_eq_true, if_false, if_true]
        decide
  | externalAxis index value target relative =>
    cases relative <;>
      · dsimp only [description]
        simp only [unbroken_append, Text.unbroken_natural, Text.unbroken_trimmed,
          and_true, Bool.false_eq_true, if_false, if_true]
        decide
  | temperature part value waits relative =>
    cases part <;> cases waits <;> cases relative <;>
      · dsimp only [description, HeatedPart.text]
        simp only [unbroken_append, Text.unbroken_trimmed, and_true,
          Bool.false_eq_true, if_false, if_true]
        decide
  | writeDigital pin on toolPin =>
    have hpin : Text.Unbroken pin := h pin List.mem_cons_self
    cases on <;> cases toolPin <;>
      · dsimp only [description]
        simp only [unbroken_append, hpin, and_true, Bool.false_eq_true, if_false,
          if_true]
        decide
  | writeAnalog pin value toolPin =>
    have hpin : Text.Unbroken pin := h pin List.mem_cons_self
    cases toolPin <;>
      · dsimp only [description]
        simp only [unbroken_append, hpin, Text.unbroken_trimmed, and_true,
          Bool.false_eq_true, if_false, if_true]
        decide
  | wait millis =>
    dsimp only [description]
    simp only [unbroken_append, Text.unbroken_natural, and_true]
    decide
  | defineTool tool =>
    have htext := h tool.name List.mem_cons_self
    dsimp only [description]
    simp only [unbroken_append, htext, and_true]
    decide
  | attachTool text | message text | comment text | customCode text =>
    have htext := h text List.mem_cons_self
    dsimp only [description]
    simp only [unbroken_append, htext, and_true]
    decide
  | extrusion on => cases on <;> decide
  | initialization on => cases on <;> decide
  | pushSettings | popSettings | detachTool => decide

end Command

end RobotMotion
