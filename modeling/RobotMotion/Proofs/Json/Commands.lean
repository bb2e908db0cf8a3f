import RobotMotion.Action.Json
import RobotMotion.Proofs.Json.Records
import Mathlib.Data.List.Permutation

/-!
# Commands that are read back

A command is written as its tag and its data, and read back in either order of the two
(`Command.readsAs`). Where the data comes first it is set aside until the tag is known; the
data of commands is readable and never nested deeply enough to be turned down there
(`Command.set_aside`).
-/

namespace RobotMotion

open Json

namespace Json

theorem depthItems_map_real (values : List Float) : depthItems (values.map .real) = 0 := by
  induction values with
  | nil => rfl
  | cons x values ih =>
    rw [List.map_cons, depthItems, ih]
    rfl

theorem readableItems_map_real (values : List Float) :
    readableItems (values.map .real) = true := by
  induction values with
  | nil => rfl
  | cons x values ih =>
    rw [List.map_cons, readableItems, ih]
    rfl

/-- A whole number of 64 bits is read back. -/
theorem readsAs_natural {n : Nat} (h : n < 2 ^ 64) : ReadsAs natural? (.natural n) n := by
  rintro _ rfl
  have hrange : (0 : Int) ≤ (n : Int) ∧ (n : Int) < Nat.pow 2 64 := by
    rw [show Nat.pow 2 64 = 2 ^ 64 from rfl]
    omega
  rw [natural?, if_pos hrange]
  rfl

end Json

namespace Command

/-- Whether the whole numbers in a command take at most 64 bits. -/
def Fits {α : Type} : Command α → Prop
  | .externalAxis index .. => index < 2 ^ 64
  | .wait millis => millis < 2 ^ 64
  | _ => True

/-- **The data of a command can be set aside** until the tag is known. -/
theorem set_aside {c : Command Float} {data : Json} (h : c.data? = some data) :
    data.readable = true ∧ data.depth ≤ dataDepthLimit := by
  cases c <;> cases h <;>
    simp [Tool.toJson, ofReals, natural, readable, readableFields, readableItems_map_real, depth,
      depthFields, depthItems_map_real, dataDepthLimit]

/-- The data of a setting is read in either order of its fields. -/
theorem settingOfData?_of_reordered (which : Quantity) (value : Float) (relative : Bool) :
    ReadsAs (settingOfData? which) (.object [("value", .real value), ("relative", .bool relative)])
      (.setting which value relative) := by
  intro j h
  obtain ⟨record, hknown, -, hvalue, hrelative, -⟩ :=
    h.record (rfl : _ = ["value", "relative"]) (by decide)
  simp only [settingOfData?, hknown, hvalue.required (readsAs_real _),
    hrelative.required (readsAs_flag _), Option.bind_eq_bind, Option.bind_some]
  rfl

/-- **A command is read from its tag and its data**, whether the data is read at once or was
set aside. -/
theorem ofTagged?_of_reordered (lenient : Bool) {c : Command Float} (hfits : c.Fits)
    {data j : Json} (hdata : c.data? = some data) (h : data.Reordered j) :
    ofTagged? lenient c.tag (some j) = some c := by
  cases c <;> cases hdata
  case setting which value relative =>
    have hread := settingOfData?_of_reordered which value relative j h
    cases which <;> exact hread
  case motionMode mode =>
    obtain rfl := h
    exact congrArg (Option.map motionMode) (MotionType.ofWord?_text mode)
  case referenceFrame frame =>
    obtain rfl := h
    exact congrArg (Option.map referenceFrame) (ReferenceFrame.ofWord?_text frame)
  case translation =>
    obtain ⟨record, hknown, -, hdelta, hrelative, -⟩ :=
      h.record (rfl : _ = ["delta", "relative"]) (by decide)
    simp only [tag, ofTagged?, hknown, hdelta.required (readsAs_vector3 _),
      hrelative.required (readsAs_flag _), Option.bind_eq_bind, Option.bind_some]
    rfl
  case rotation =>
    obtain ⟨record, hknown, -, hrotation, hrelative, -⟩ :=
      h.record (rfl : _ = ["rotation", "relative"]) (by decide)
    simp only [tag, ofTagged?, hknown, hrotation.required (readsAs_rotation _),
      hrelative.required (readsAs_flag _), Option.bind_eq_bind, Option.bind_some]
    rfl
  case transformation =>
    obtain ⟨record, hknown, -, htranslation, hrotation, hrelative, hfirst, -⟩ :=
      h.record (rfl : _ = ["translation", "rotation", "relative", "translation_first"]) (by decide)
    simp only [tag, ofTagged?, hknown, htranslation.required (readsAs_vector3 _),
      hrotation.required (readsAs_rotation _), hrelative.required (readsAs_flag _),
      hfirst.required (readsAs_flag _), Option.bind_eq_bind, Option.bind_some]
    rfl
  case axes =>
    obtain ⟨record, hknown, -, hjoints, hrelative, -⟩ :=
      h.record (rfl : _ = ["joints", "relative"]) (by decide)
    simp only [tag, ofTagged?, hknown, hjoints.required (readsAs_joints _),
      hrelative.required (readsAs_flag _), Option.bind_eq_bind, Option.bind_some]
    rfl
  case externalAxis index value target relative =>
    obtain ⟨record, hknown, -, hindex, hvalue, htarget, hrelative, -⟩ :=
      h.record (rfl : _ = ["index", "value", "target", "relative"]) (by decide)
    simp only [tag, ofTagged?, hknown, hindex.required (readsAs_natural hfits),
      hvalue.required (readsAs_real _),
      htarget.required (readsAs_word lenient (AxesTarget.ofWord?_text target)),
      hrelative.required (readsAs_flag _), Option.bind_eq_bind, Option.bind_some]
    rfl
  case defineTool tool => exact congrArg (Option.map defineTool) (tool.readsAs j h)
  case attachTool =>
    obtain ⟨record, hknown, -, hname, -⟩ :=
      h.record (rfl : _ = ["name"]) (by decide)
    simp only [tag, ofTagged?, hknown, hname.required (readsAs_string _), Option.bind_eq_bind,
      Option.bind_some]
    rfl
  case writeDigital =>
    obtain ⟨record, hknown, -, hpin, hon, htoolPin, -⟩ :=
      h.record (rfl : _ = ["pin", "on", "tool_pin"]) (by decide)
    simp only [tag, ofTagged?, hknown, hpin.required (readsAs_string _),
      hon.required (readsAs_flag _), htoolPin.required (readsAs_flag _), Option.bind_eq_bind,
      Option.bind_some]
    rfl
  case writeAnalog =>
    obtain ⟨record, hknown, -, hpin, hvalue, htoolPin, -⟩ :=
      h.record (rfl : _ = ["pin", "value", "tool_pin"]) (by decide)
    simp only [tag, ofTagged?, hknown, hpin.required (readsAs_string _),
      hvalue.required (readsAs_real _), htoolPin.required (readsAs_flag _), Option.bind_eq_bind,
      Option.bind_some]
    rfl
  case wait millis =>
    obtain ⟨record, hknown, -, hmillis, -⟩ :=
      h.record (rfl : _ = ["millis"]) (by decide)
    simp only [tag, ofTagged?, hknown, hmillis.required (readsAs_natural hfits),
      Option.bind_eq_bind, Option.bind_some]
    rfl
  case message | comment | extrusion | initialization =>
    obtain rfl := h
    rfl
  case temperature part value waits relative =>
    obtain ⟨record, hknown, -, hpart, hvalue, hwaits, hrelative, -⟩ :=
      h.record (rfl : _ = ["part", "value", "wait", "relative"]) (by decide)
    simp only [tag, ofTagged?, hknown,
      hpart.required (readsAs_word lenient (HeatedPart.ofWord?_text part)),
      hvalue.required (readsAs_real _), hwaits.required (readsAs_flag _),
      hrelative.required (readsAs_flag _), Option.bind_eq_bind, Option.bind_some]
    rfl
  case customCode =>
    obtain ⟨record, hknown, -, hcode, hdeclaration, -⟩ :=
      h.record (rfl : _ = ["code", "is_declaration"]) (by decide)
    simp only [tag, ofTagged?, hknown, hcode.required (readsAs_string _),
      hdeclaration.required (readsAs_flag _), Option.bind_eq_bind, Option.bind_some]
    rfl

/-- A command without data is read from its tag. -/
theorem ofTagged?_none (lenient : Bool) {c : Command Float} (h : c.data? = none) :
    ofTagged? lenient c.tag none = some c := by
  cases c <;> cases h <;> rfl

/-- **A command is read back**, whichever of its tag and its data comes first. -/
theorem readsAs {c : Command Float} (hfits : c.Fits) : ReadsAs ofJson? c.toJson c := by
  intro j h
  cases hdata : c.data? with
  | none =>
    rw [toJson, hdata] at h
    obtain ⟨fields, rfl, _, ⟨_, rfl, _, rfl, rfl⟩, hperm⟩ := h
    obtain rfl := List.perm_singleton.mp hperm.symm
    exact ofTagged?_none false hdata
  | some data =>
    rw [toJson, hdata] at h
    obtain ⟨fields, rfl, _, ⟨_, rfl, _, ⟨data', hdata', _, rfl, rfl⟩, rfl⟩, hperm⟩ := h
    have hread (lenient : Bool) := ofTagged?_of_reordered lenient hfits hdata hdata'
    obtain ⟨hdepth, hreadable, -⟩ := hdata'.same
    have haside : data'.readable = true ∧ data'.depth ≤ dataDepthLimit := by
      rw [hdepth, hreadable]
      exact set_aside hdata
    -- with the data in front it is set aside, and read when the tag is known
    rcases List.pair_perm.mp hperm with rfl | rfl
    · exact hread false
    · show (if data'.readable ∧ data'.depth ≤ dataDepthLimit then
          ofTagged? true c.tag (some data') else none) = some c
      rw [if_pos haside]
      exact hread true

end Command

end RobotMotion
