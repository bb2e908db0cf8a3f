import RobotMotion.Proofs.Cursor.Rehearsal
import RobotMotion.Proofs.Device.Equipment
import RobotMotion.Proofs.Device.Place
import RobotMotion.Proofs.Program.Lines

/-!
# Programs lack nothing

The code of a motion is made of the place that the motion leads to, and that of attaching a
tool of the tool. Where a state has none, a dialect says so in place of code
(`Program.shortages`). This never comes about: an action that applied leaves behind what its
code is made of (`Device.complete_visit`), and then a step of a draft reports no shortage
(`complete_step`). What else a dialect finds fault with are pins and the values for them.
-/

namespace RobotMotion

open Program (Part Place)

/-! ### What applied actions leave behind -/

/-- An action that applied leaves behind what its code is made of: a motion to a pose the
pose, a motion to joint angles the angles, and attaching a tool the tool. -/
def Visit.Complete (v : Visit Float) : Prop :=
  v.applied = true →
    match v.action.command with
    | .translation .. | .rotation .. | .transformation .. => v.state.pose?.isSome = true
    | .axes .. => v.state.axes.isSome = true
    | .attachTool _ => v.state.tool.isSome = true
    | _ => True

/-- **What a device tries is complete**, however the device stands. -/
theorem Device.complete_visit (d : Device Float) (a : Action Float) : (d.visit a).Complete := by
  intro happlied
  have hperform := perform_of_applied happlied
  -- an action that applied has put the device where its command says
  have hplaces := perform_places hperform
  have hpose (h : (d.visit a).state.HasPose) : (d.visit a).state.pose?.isSome = true := by
    obtain ⟨position, hposition⟩ := Option.isSome_iff_exists.mp h.1
    obtain ⟨rotation, hrotation⟩ := Option.isSome_iff_exists.mp h.2
    exact Option.isSome_of_eq_some (State.pose?_eq_some_iff.mpr ⟨hposition, hrotation⟩)
  rw [visit_action]
  cases hc : a.command with
  | translation | rotation | transformation =>
    rw [hc] at hplaces
    exact hpose hplaces.1
  | axes joints relative =>
    rw [hc] at hplaces
    exact hplaces.1
  | attachTool name =>
    rw [hc] at hperform
    exact isSome_tool_of_attachTool hperform
  | _ => trivial

/-- So is all that a device tries one after the other. -/
theorem Device.complete_visits (d : Device Float) (actions : List (Action Float)) :
    ∀ v ∈ d.visits actions, v.Complete := by
  intro v hv
  obtain ⟨e, a, rfl⟩ := exists_of_mem_visits hv
  exact e.complete_visit a

/-! ### Shortages -/

namespace Program

/-- What a dialect says where a state lacks what the code of an action is made of. -/
def shortages : List String :=
  ["no target available for motion", "no position available for motion",
    "no tool attached after attach"]

/-- Whether an entry reports a shortage. -/
def Entry.isShortage {σ : Type} : Entry σ → Bool
  | .diagnostic _ (.error message) => message ∈ shortages
  | _ => false

/-- Entries of which none reports a shortage. -/
def Complete {σ : Type} (entries : List (Entry σ)) : Prop :=
  ∀ entry ∈ entries, entry.isShortage = false

variable {σ : Type}

@[simp] theorem complete_nil : Complete ([] : List (Entry σ)) := nofun

/-- Entries are complete where both their pieces are. -/
@[simp] theorem complete_append {entries more : List (Entry σ)} :
    Complete (entries ++ more) ↔ Complete entries ∧ Complete more :=
  List.forall_mem_append

@[simp] theorem complete_singleton {entry : Entry σ} :
    Complete [entry] ↔ entry.isShortage = false :=
  List.forall_mem_singleton

/-- Code is no shortage. -/
@[simp] theorem isShortage_code (action : Action Float) (statements : List σ) :
    (Entry.code action statements).isShortage = false := rfl

/-- That an action failed is no shortage. -/
@[simp] theorem isShortage_failed (action : Action Float) :
    (Entry.diagnostic action .failed : Entry σ).isShortage = false := rfl

/-- Neither is that a dialect does not support it. -/
@[simp] theorem isShortage_unsupported (action : Action Float) :
    (Entry.diagnostic action .unsupported : Entry σ).isShortage = false := rfl

@[simp] theorem isShortage_blank : (Entry.blank : Entry σ).isShortage = false := rfl

/-- Shortages are told from other faults by their first character. -/
theorem isShortage_error (action : Action Float) (message : String)
    (h : message.toList.head? ≠ some 'n') :
    (Entry.diagnostic action (.error message) : Entry σ).isShortage = false := by
  have hnot : message ∉ shortages := by
    intro hmem
    simp only [shortages, List.mem_cons, List.not_mem_nil, or_false] at hmem
    rcases hmem with rfl | rfl | rfl <;> exact h rfl
  exact decide_eq_false hnot

/-- Statements of a fixed opening report no shortage. -/
@[simp] theorem complete_plain (statements : List σ) : Complete (statements.map Entry.plain) := by
  intro entry hentry
  obtain ⟨statement, -, rfl⟩ := List.mem_map.mp hentry
  rfl

/-- Writing out the statements does not touch the diagnostics. -/
@[simp] theorem complete_of {look : Look} {render : σ → String} {entries : List (Entry σ)} :
    Complete (Part.of look render entries).entries ↔ Complete entries := by
  have hsame (entry : Entry σ) : (entry.map render).isShortage = entry.isShortage := by
    cases entry with
    | diagnostic action what => cases what <;> rfl
    | _ => rfl
  simp [Complete, Part.of, hsame]

@[simp] theorem complete_fixed (look : Look) (lines : List String) :
    Complete (Part.fixed look lines).entries :=
  complete_plain lines

end Program

/-! ### RAPID -/

namespace Rapid.Draft

/-- A module without shortages. -/
def Complete (draft : Draft) : Prop :=
  Program.Complete draft.targets ∧ Program.Complete draft.body

/-- Writing an entry keeps a module complete unless it is a shortage. -/
@[simp] theorem complete_write {draft : Draft} {entry : Program.Entry Statement} :
    (draft.write entry).Complete ↔ draft.Complete ∧ entry.isShortage = false := by
  simp [Complete, write, and_assoc]

@[simp] theorem complete_speedName {draft : Draft} {d : Decimals} {speed : Float} :
    (draft.speedName d speed).2.Complete ↔ draft.Complete := .rfl

/-- Naming a zone writes nothing. -/
@[simp] theorem complete_zoneName {draft : Draft} {d : Decimals} {radius : Float} :
    (draft.zoneName d radius).2.Complete ↔ draft.Complete := by
  rw [zoneName]
  split <;> rfl

/-- Declaring a target reports no shortage. -/
@[simp] theorem complete_placeTarget {draft : Draft} {inlineTargets : Bool}
    {action : Action Float} {target : Target} :
    (draft.placeTarget inlineTargets action target).2.Complete ↔ draft.Complete := by
  cases inlineTargets <;> simp [placeTarget, Complete]

/-- A motion that has a target is written without a shortage. -/
theorem complete_motion {draft : Draft} (h : draft.Complete) (d : Decimals)
    (inlineTargets : Bool) (v : Visit Float) (kind : MoveKind) {target? : Option Target}
    (htarget : target?.isSome = true) :
    (draft.motion d inlineTargets v kind target?).Complete := by
  obtain ⟨target, rfl⟩ := Option.isSome_iff_exists.mp htarget
  simp [motion, h]

/-- **A step for RAPID reports no shortage** where the visit left behind what its code is made of.
-/
theorem complete_step (d : Decimals) (inlineTargets : Bool) (draft : Draft)
    (h : draft.Complete) (v : Visit Float) (hv : v.Complete) :
    (step d inlineTargets draft v).Complete := by
  cases ha : v.applied with
  | false => simp [step, ha, h]
  | true =>
    have hleft := hv ha
    -- the fault of a bad signal name quotes the name, so it begins like no shortage
    have hsignal (pin : String) :
        ("\"" ++ pin ++ "\" is not a valid RAPID signal name").toList.head? ≠ some 'n' := by
      simp
    cases hc : v.action.command with
    | translation | rotation | transformation | axes =>
      rw [hc] at hleft
      simp only [step, ha, hc]
      exact complete_motion h d inlineTargets v _ (Option.isSome_map.trans hleft)
    | setting which value relative => cases which <;> simp [step, ha, hc, h]
    | popSettings =>
      cases hb : v.device.stack.beforePop with
      | none => simp [step, ha, hc, hb, h]
      | some before =>
        cases hne : before.acceleration != v.state.settings.acceleration <;>
          simp [step, ha, hc, hb, hne, h]
    | defineTool tool =>
      simp only [step, ha, hc]
      exact h
    | writeDigital pin on toolPin =>
      cases hp : isIdentifier pin <;>
        simp [step, ha, hc, hp, h, Program.isShortage_error _ _ (hsignal pin)]
    | writeAnalog pin value toolPin =>
      cases hp : isIdentifier pin <;>
        simp [step, ha, hc, hp, h, Program.isShortage_error _ _ (hsignal pin)]
    | customCode code isDeclaration =>
      cases isDeclaration
      · simp [step, ha, hc, h]
      · simp only [step, ha, hc]
        exact h
    | _ => simp [step, ha, hc, h]

end Rapid.Draft

/-- Modules of complete visits are complete. -/
theorem Rapid.complete_draft (d : Decimals) (inlineTargets : Bool) {visits : List (Visit Float)}
    (hvisits : ∀ v ∈ visits, v.Complete) : (draft d inlineTargets visits).Complete :=
  Program.foldl_invariant Draft.Complete Visit.Complete (Draft.complete_step d inlineTargets)
    ⟨Program.complete_nil, Program.complete_nil⟩ hvisits

/-! ### KRL -/

namespace Krl.Draft

/-- A program without shortages. -/
def Complete (draft : Draft) : Prop :=
  Program.Complete draft.declarations ∧ Program.Complete draft.body

@[simp] theorem complete_write {draft : Draft} {entry : Program.Entry Statement} :
    (draft.write entry).Complete ↔ draft.Complete ∧ entry.isShortage = false := by
  simp [Complete, write, and_assoc]

@[simp] theorem complete_declare {draft : Draft} {action : Action Float}
    {declarations : List Declaration} :
    (draft.declare (.code action declarations)).Complete ↔ draft.Complete := by
  simp [Complete, declare]

@[simp] theorem complete_placeTarget {draft : Draft} {inlineTargets : Bool}
    {action : Action Float} {target : Target} :
    (draft.placeTarget inlineTargets action target).2.Complete ↔ draft.Complete := by
  cases inlineTargets
  · exact complete_declare
  · exact .rfl

/-- A motion that has a target is written without a shortage. -/
theorem complete_motion {draft : Draft} (h : draft.Complete) (inlineTargets : Bool)
    (v : Visit Float) (move : Place Target → Bool → Statement) {target? : Option Target}
    (htarget : target?.isSome = true) :
    (draft.motion inlineTargets v move target?).Complete := by
  obtain ⟨target, rfl⟩ := Option.isSome_iff_exists.mp htarget
  simp [motion, h]

/-- **A step for KRL reports no shortage** where the visit left behind what its code is made of. -/
theorem complete_step (d : Decimals) (inlineTargets : Bool) (draft : Draft)
    (h : draft.Complete) (v : Visit Float) (hv : v.Complete) :
    (step d inlineTargets draft v).Complete := by
  cases ha : v.applied with
  | false => simp [step, ha, h]
  | true =>
    have hleft := hv ha
    cases hc : v.action.command with
    | translation | rotation | transformation | axes =>
      rw [hc] at hleft
      simp only [step, ha, hc]
      exact complete_motion h inlineTargets v _ (Option.isSome_map.trans hleft)
    | setting which value relative => cases which <;> simp [step, ha, hc, h]
    | popSettings => cases hb : v.device.stack.beforePop <;> simp [step, ha, hc, hb, h]
    | attachTool name =>
      rw [hc] at hleft
      obtain ⟨tool, ht⟩ := Option.isSome_iff_exists.mp hleft
      simp [step, ha, hc, ht, h]
    | writeDigital pin on toolPin =>
      cases hp : pinNumber? 1 4096 pin <;>
        simp [step, ha, hc, hp, h, Program.isShortage_error]
    | writeAnalog pin value toolPin =>
      cases hp : pinNumber? 1 32 pin with
      | none => simp [step, ha, hc, hp, h, Program.isShortage_error]
      | some n =>
        -- pins and values have faults of their own, none of them a shortage
        have hrange := Program.isShortage_error (σ := Statement) v.action
          "analog value must be within -1..1" (by decide)
        by_cases hvalue : (-1.0 ≤ value && value ≤ 1.0) = true <;>
          simp [step, ha, hc, hp, hvalue, h, hrange]
    | customCode code isDeclaration => cases isDeclaration <;> simp [step, ha, hc, h]
    | _ => simp [step, ha, hc, h]

/-- The settings at the start report no shortage. -/
theorem complete_start (d : Decimals) (settings : Settings Float) :
    (start d settings).Complete := by
  simp [Complete, start]

end Krl.Draft

/-- KRL programs of complete visits are complete. -/
theorem Krl.complete_draft (d : Decimals) (inlineTargets : Bool) (settings : Settings Float)
    {visits : List (Visit Float)} (hvisits : ∀ v ∈ visits, v.Complete) :
    (draft d inlineTargets settings visits).Complete :=
  Program.foldl_invariant Draft.Complete Visit.Complete (Draft.complete_step d inlineTargets)
    (Draft.complete_start d settings) hvisits

/-! ### URScript -/

namespace UrScript.Draft

/-- A program without shortages. -/
def Complete (draft : Draft) : Prop :=
  Program.Complete draft.declarations ∧ Program.Complete draft.body

@[simp] theorem complete_write {draft : Draft} {entry : Program.Entry Statement} :
    (draft.write entry).Complete ↔ draft.Complete ∧ entry.isShortage = false := by
  simp [Complete, write, and_assoc]

@[simp] theorem complete_declare {draft : Draft} {action : Action Float}
    {declarations : List Declaration} :
    (draft.declare (.code action declarations)).Complete ↔ draft.Complete := by
  simp [Complete, declare]

@[simp] theorem complete_placeTarget {draft : Draft} {inlineTargets : Bool}
    {action : Action Float} {target : Target} :
    (draft.placeTarget inlineTargets action target).2.Complete ↔ draft.Complete := by
  cases inlineTargets
  · exact complete_declare
  · exact .rfl

/-- A motion that has a target is written without a shortage. -/
theorem complete_motion {draft : Draft} (h : draft.Complete) (inlineTargets : Bool)
    (v : Visit Float) (move : Place Target → Statement) {target? : Option Target}
    (htarget : target?.isSome = true) :
    (draft.motion inlineTargets v move target?).Complete := by
  obtain ⟨target, rfl⟩ := Option.isSome_iff_exists.mp htarget
  simp [motion, h]

/-- **A step for URScript reports no shortage** where the visit left behind what its code is made
of. -/
theorem complete_step (d : Decimals) (inlineTargets : Bool) (draft : Draft)
    (h : draft.Complete) (v : Visit Float) (hv : v.Complete) :
    (step d inlineTargets draft v).Complete := by
  cases ha : v.applied with
  | false => simp [step, ha, h]
  | true =>
    have hleft := hv ha
    cases hc : v.action.command with
    | translation | rotation | transformation | axes =>
      rw [hc] at hleft
      simp only [step, ha, hc, Bool.not_true, Bool.false_eq_true, if_false]
      exact complete_motion h inlineTargets v _ (Option.isSome_map.trans hleft)
    | setting which value relative => cases which <;> simp [step, ha, hc, h]
    | attachTool name =>
      rw [hc] at hleft
      obtain ⟨tool, ht⟩ := Option.isSome_iff_exists.mp hleft
      simp [step, ha, hc, ht, h]
    | writeDigital pin on toolPin =>
      cases hp : pinNumber? 0 (digitalOutput toolPin).lastPin pin <;>
        simp [step, ha, hc, hp, h, Program.isShortage_error]
    | writeAnalog pin value toolPin =>
      cases toolPin with
      | true =>
        have hflange := Program.isShortage_error (σ := Statement) v.action
          "the tool flange has no analog outputs" (by decide)
        simp [step, ha, hc, h, hflange]
      | false =>
        cases hp : pinNumber? 0 1 pin with
        | none => simp [step, ha, hc, hp, h, Program.isShortage_error]
        | some n =>
          have hrange := Program.isShortage_error (σ := Statement) v.action
            "analog value must be within 0..10 V" (by decide)
          by_cases hvalue : (0.0 ≤ value && value ≤ maxVolts) = true <;>
            simp [step, ha, hc, hp, hvalue, h, hrange]
    | customCode code isDeclaration => cases isDeclaration <;> simp [step, ha, hc, h]
    | _ => simp [step, ha, hc, h]

end UrScript.Draft

/-- URScript programs of complete visits are complete. -/
theorem UrScript.complete_draft (d : Decimals) (inlineTargets : Bool)
    {visits : List (Visit Float)} (hvisits : ∀ v ∈ visits, v.Complete) :
    (draft d inlineTargets visits).Complete :=
  Program.foldl_invariant Draft.Complete Visit.Complete (Draft.complete_step d inlineTargets)
    ⟨Program.complete_nil, Program.complete_nil⟩ hvisits

/-! ### G-code -/

namespace GCode.Draft

/-- A program without shortages. -/
def Complete (draft : Draft) : Prop :=
  Program.Complete draft.preamble ∧ Program.Complete draft.body

/-- The preamble holds code only. -/
theorem complete_preambleEntries (v : Visit Float) : Program.Complete (preambleEntries v) := by
  rw [preambleEntries]
  split
  · exact Program.complete_singleton.mpr rfl
  · exact Program.complete_nil

/-- What becomes of a complete visit in a G-code program is no shortage. -/
theorem complete_bodyEntries (d : Decimals) (origin : Float) {v : Visit Float}
    (hv : v.Complete) : Program.Complete (bodyEntries d origin v) := by
  cases ha : v.applied with
  | false => simp [bodyEntries, ha]
  | true =>
    have hleft := hv ha
    -- G-code moves to the position alone, which a pose has
    have hmotion (hpose : v.state.pose?.isSome = true) :
        ∃ position, v.state.position = some position := by
      obtain ⟨⟨position, rotation⟩, h⟩ := Option.isSome_iff_exists.mp hpose
      exact ⟨position, (State.pose?_eq_some_iff.mp h).1⟩
    cases hc : v.action.command with
    | translation | transformation =>
      rw [hc] at hleft
      obtain ⟨position, hp⟩ := hmotion hleft
      simp [bodyEntries, ha, hc, hp]
    | setting which value relative => cases which <;> simp [bodyEntries, ha, hc]
    | popSettings =>
      cases hb : v.device.stack.beforePop with
      | none => simp [bodyEntries, ha, hc, hb]
      | some before =>
        cases hne : before.acceleration != v.state.settings.acceleration <;>
          simp [bodyEntries, ha, hc, hb, hne]
    | writeDigital pin on toolPin =>
      cases hp : pinNumber? 0 lastPin pin <;>
        simp [bodyEntries, ha, hc, hp, Program.isShortage_error]
    | writeAnalog pin value toolPin =>
      cases hp : pinNumber? 0 lastPin pin with
      | none => simp [bodyEntries, ha, hc, hp, Program.isShortage_error]
      | some n =>
        have hrange := Program.isShortage_error (σ := Statement) v.action
          "analog value must be within 0..1" (by decide)
        by_cases hvalue : (0.0 ≤ value && value ≤ 1.0) = true <;>
          simp [bodyEntries, ha, hc, hp, hvalue, hrange]
    | customCode code isDeclaration => cases isDeclaration <;> simp [bodyEntries, ha, hc]
    | _ => simp [bodyEntries, ha, hc]

/-- **A step for G-code reports no shortage** where the visit left behind what its code is made of.
-/
theorem complete_step (d : Decimals) (draft : Draft) (h : draft.Complete) (v : Visit Float)
    (hv : v.Complete) : (step d draft v).Complete := by
  obtain ⟨hpreamble, hbody⟩ := h
  exact ⟨Program.complete_append.mpr ⟨hpreamble, complete_preambleEntries v⟩,
    Program.complete_append.mpr ⟨hbody, complete_bodyEntries d draft.origin hv⟩⟩

end GCode.Draft

/-- G-code programs of complete visits are complete. -/
theorem GCode.complete_draft (d : Decimals) (origin : Float) {visits : List (Visit Float)}
    (hvisits : ∀ v ∈ visits, v.Complete) : (draft d origin visits).Complete :=
  Program.foldl_invariant Draft.Complete Visit.Complete (Draft.complete_step d)
    ⟨Program.complete_nil, Program.complete_nil⟩ hvisits

/-! ### All dialects -/

/-- A list of calls holds calls and failures only. -/
theorem CallList.complete_body (visits : List (Visit Float)) : Program.Complete (body visits) := by
  intro e he
  obtain ⟨v, -, rfl⟩ := List.mem_map.mp he
  rw [entry]
  split <;> rfl

/-- **No part of a program reports a shortage**, in any dialect. -/
theorem Dialect.complete_parts (dialect : Dialect) (d : Decimals) (time name : String)
    (options : ProgramOptions) (cursor : Cursor Float) :
    ∀ part ∈ dialect.parts d time name options cursor, Program.Complete part.entries := by
  -- programs are written from a rehearsal, and all a device tries is complete
  have hvisits : ∀ v ∈ cursor.visits options.blockOnly, v.Complete := by
    rw [Cursor.visits_eq_rehearsal]
    exact cursor.device.complete_visits _
  cases dialect with
  | rapid =>
    obtain ⟨htargets, hbody⟩ := Rapid.complete_draft d options.inlineTargets hvisits
    simp [parts, Rapid.parts, htargets, hbody]
  | krl =>
    obtain ⟨hdeclarations, hbody⟩ := Krl.complete_draft d options.inlineTargets
      cursor.device.state.settings hvisits
    simp [parts, Krl.parts, hdeclarations, hbody]
  | urscript =>
    obtain ⟨hdeclarations, hbody⟩ := UrScript.complete_draft d options.inlineTargets hvisits
    simp [parts, UrScript.parts, hdeclarations, hbody]
  | gcode =>
    obtain ⟨hpreamble, hbody⟩ := GCode.complete_draft d cursor.device.state.extruded hvisits
    simp [parts, GCode.parts, hpreamble, hbody]
  | calls => simp [parts, CallList.parts, CallList.complete_body]

end RobotMotion
