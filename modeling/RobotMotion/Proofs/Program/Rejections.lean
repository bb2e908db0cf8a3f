import RobotMotion.Proofs.Program.Layout

/-!
# Rejections in a program

Every dialect writes a diagnostic in place of the code of a rejected action.
`Dialect.rejected_parts` says that it does so for the rejected actions only, once
for each and in their order: a step of a draft adds to the failures among its
entries what its visit adds to the rejections (`rejected_step`), and a draft is a
fold of steps.
-/

namespace RobotMotion

open Program (Part Place)

namespace Program

/-- The action that an entry reports as rejected. -/
def Entry.rejected? {σ : Type} : Entry σ → Option (Action Float)
  | .diagnostic action .failed => some action
  | _ => none

/-- The actions that entries report as rejected. -/
def rejected {σ : Type} (entries : List (Entry σ)) : List (Action Float) :=
  entries.filterMap Entry.rejected?

variable {σ τ : Type}

@[simp] theorem rejected_nil : rejected ([] : List (Entry σ)) = [] := rfl

/-- Rejections are reported section by section. -/
@[simp] theorem rejected_append (entries more : List (Entry σ)) :
    rejected (entries ++ more) = rejected entries ++ rejected more :=
  List.filterMap_append

/-- Code reports nothing. -/
@[simp] theorem rejected_code (action : Action Float) (statements : List σ) :
    rejected [Entry.code action statements] = [] := rfl

/-- The diagnostic of a failed action reports this action. -/
@[simp] theorem rejected_failed (action : Action Float) :
    rejected [(Entry.diagnostic action .failed : Entry σ)] = [action] := rfl

/-- An action that a dialect does not support is not reported as rejected. -/
@[simp] theorem rejected_unsupported (action : Action Float) :
    rejected [(Entry.diagnostic action .unsupported : Entry σ)] = [] := rfl

/-- Neither is one that a dialect finds fault with. -/
@[simp] theorem rejected_error (action : Action Float) (message : String) :
    rejected [(Entry.diagnostic action (.error message) : Entry σ)] = [] := rfl

@[simp] theorem rejected_blank : rejected [(Entry.blank : Entry σ)] = [] := rfl

/-- Statements of a fixed opening report nothing. -/
@[simp] theorem rejected_plain (statements : List σ) :
    rejected (statements.map Entry.plain) = [] := by
  induction statements with
  | nil => rfl
  | cons statement rest ih => exact ih

/-- Writing out the statements does not touch the diagnostics. -/
@[simp] theorem rejected_of (look : Look) (render : σ → String) (entries : List (Entry σ)) :
    rejected (Part.of look render entries).entries = rejected entries := by
  rw [rejected, Part.of, List.filterMap_map]
  refine congrArg (List.filterMap · entries) (funext fun entry => ?_)
  cases entry with
  | diagnostic action what => cases what <;> rfl
  | _ => rfl

@[simp] theorem rejected_fixed (look : Look) (lines : List String) :
    rejected (Part.fixed look lines).entries = [] :=
  rejected_plain lines

/-- What a step adds to a list adds up over the steps. -/
theorem foldl_of_step {δ ν γ : Type} {step : δ → ν → δ} {read : δ → List γ}
    {adds : ν → List γ} (hstep : ∀ draft v, read (step draft v) = read draft ++ adds v)
    (draft : δ) (vs : List ν) :
    read (vs.foldl step draft) = read draft ++ vs.flatMap adds := by
  -- over the steps, for every draft to start from
  induction vs generalizing draft with
  | nil => simp
  | cons v rest ih => rw [List.foldl_cons, ih, hstep, List.flatMap_cons, List.append_assoc]

end Program

/-- The action of a visit if it was rejected. -/
def Visit.rejected (v : Visit Float) : List (Action Float) := if v.applied then [] else [v.action]

/-- An action that applied is no rejection. -/
theorem Visit.rejected_of_applied {v : Visit Float} (h : v.applied = true) : v.rejected = [] :=
  if_pos h

/-- The rejections among visits are the actions of those that did not apply. -/
theorem Visit.flatMap_rejected (visits : List (Visit Float)) :
    visits.flatMap Visit.rejected = (visits.filter (!·.applied)).map Visit.action := by
  induction visits with
  | nil => rfl
  | cons v rest ih => cases h : v.applied <;> simp [rejected, h, ih]

/-! ### RAPID -/

namespace Rapid.Draft

/-- The actions that a module reports as rejected. -/
def rejected (draft : Draft) : List (Action Float) :=
  Program.rejected draft.targets ++ Program.rejected draft.body

/-- Writing an entry adds what the entry reports. -/
@[simp] theorem rejected_write (draft : Draft) (entry : Program.Entry Statement) :
    (draft.write entry).rejected = draft.rejected ++ Program.rejected [entry] := by
  simp [rejected, write]

@[simp] theorem rejected_speedName (draft : Draft) (d : Decimals) (speed : Float) :
    (draft.speedName d speed).2.rejected = draft.rejected := rfl

/-- Naming a zone reports nothing. -/
@[simp] theorem rejected_zoneName (draft : Draft) (d : Decimals) (radius : Float) :
    (draft.zoneName d radius).2.rejected = draft.rejected := by
  rw [zoneName]
  split <;> rfl

/-- Declaring a target reports nothing. -/
@[simp] theorem rejected_placeTarget (draft : Draft) (inlineTargets : Bool)
    (action : Action Float) (target : Target) :
    (draft.placeTarget inlineTargets action target).2.rejected = draft.rejected := by
  cases inlineTargets <;> simp [placeTarget, rejected]

/-- The code of a motion reports nothing, nor does the fault of one without a target. -/
@[simp] theorem rejected_motion (draft : Draft) (d : Decimals) (inlineTargets : Bool)
    (v : Visit Float) (kind : MoveKind) (target? : Option Target) :
    (draft.motion d inlineTargets v kind target?).rejected = draft.rejected := by
  cases target? <;> simp [motion]

/-- **A step for RAPID reports its action if and only if it was rejected.** -/
theorem rejected_step (d : Decimals) (inlineTargets : Bool) (draft : Draft) (v : Visit Float) :
    (step d inlineTargets draft v).rejected = draft.rejected ++ v.rejected := by
  cases ha : v.applied with
  | false => simp [step, ha, Visit.rejected]
  | true =>
    rw [Visit.rejected_of_applied ha, List.append_nil]
    -- commands that write more than one thing, or one of two, are split further
    cases hc : v.action.command with
    | setting which value relative => cases which <;> simp [step, ha, hc]
    | popSettings =>
      cases hb : v.device.stack.beforePop with
      | none => simp [step, ha, hc, hb]
      | some before =>
        cases hne : before.acceleration != v.state.settings.acceleration <;>
          simp [step, ha, hc, hb, hne]
    | defineTool tool =>
      simp only [step, ha, hc]
      rfl
    | writeDigital pin on toolPin =>
      cases hp : isIdentifier pin <;> simp [step, ha, hc, hp]
    | writeAnalog pin value toolPin =>
      cases hp : isIdentifier pin <;> simp [step, ha, hc, hp]
    | customCode code isDeclaration =>
      cases isDeclaration
      · simp [step, ha, hc]
      · simp only [step, ha, hc]
        rfl
    | _ => simp [step, ha, hc]

end Rapid.Draft

/-- A module reports the rejections among its visits in their order. -/
theorem Rapid.rejected_draft (d : Decimals) (inlineTargets : Bool) (visits : List (Visit Float)) :
    (draft d inlineTargets visits).rejected = visits.flatMap Visit.rejected :=
  Program.foldl_of_step (Draft.rejected_step d inlineTargets) .empty visits

/-! ### KRL -/

namespace Krl.Draft

/-- The actions that a program reports as rejected. -/
def rejected (draft : Draft) : List (Action Float) :=
  Program.rejected draft.declarations ++ Program.rejected draft.body

@[simp] theorem rejected_write (draft : Draft) (entry : Program.Entry Statement) :
    (draft.write entry).rejected = draft.rejected ++ Program.rejected [entry] := by
  simp [rejected, write]

@[simp] theorem rejected_declare (draft : Draft) (action : Action Float)
    (declarations : List Declaration) :
    (draft.declare (.code action declarations)).rejected = draft.rejected := by
  simp [rejected, declare]

@[simp] theorem rejected_placeTarget (draft : Draft) (inlineTargets : Bool)
    (action : Action Float) (target : Target) :
    (draft.placeTarget inlineTargets action target).2.rejected = draft.rejected := by
  cases inlineTargets
  · exact rejected_declare draft action _
  · rfl

@[simp] theorem rejected_motion (draft : Draft) (inlineTargets : Bool) (v : Visit Float)
    (move : Place Target → Bool → Statement) (target? : Option Target) :
    (draft.motion inlineTargets v move target?).rejected = draft.rejected := by
  cases target? <;> simp [motion]

/-- **A step for KRL reports its action if and only if it was rejected.** -/
theorem rejected_step (d : Decimals) (inlineTargets : Bool) (draft : Draft) (v : Visit Float) :
    (step d inlineTargets draft v).rejected = draft.rejected ++ v.rejected := by
  cases ha : v.applied with
  | false => simp [step, ha, Visit.rejected]
  | true =>
    rw [Visit.rejected_of_applied ha, List.append_nil]
    -- an applied action gives code or a fault of its pin or value, neither of which reports
    cases hc : v.action.command with
    | setting which value relative => cases which <;> simp [step, ha, hc]
    | popSettings => cases hb : v.device.stack.beforePop <;> simp [step, ha, hc, hb]
    | attachTool name => cases ht : v.state.tool <;> simp [step, ha, hc, ht]
    | writeDigital pin on toolPin =>
      cases hp : pinNumber? 1 4096 pin <;> simp [step, ha, hc, hp]
    | writeAnalog pin value toolPin =>
      cases hp : pinNumber? 1 32 pin with
      | none => simp [step, ha, hc, hp]
      | some n =>
        by_cases hv : (-1.0 ≤ value && value ≤ 1.0) = true <;> simp [step, ha, hc, hp, hv]
    | customCode code isDeclaration => cases isDeclaration <;> simp [step, ha, hc]
    | _ => simp [step, ha, hc]

/-- The settings at the start report nothing. -/
theorem rejected_start (d : Decimals) (settings : Settings Float) :
    (start d settings).rejected = [] := by
  simp [rejected, start]

end Krl.Draft

/-- A KRL program reports the rejections among its visits in their order. -/
theorem Krl.rejected_draft (d : Decimals) (inlineTargets : Bool) (settings : Settings Float)
    (visits : List (Visit Float)) :
    (draft d inlineTargets settings visits).rejected = visits.flatMap Visit.rejected := by
  rw [draft, Program.foldl_of_step (Draft.rejected_step d inlineTargets), Draft.rejected_start,
    List.nil_append]

/-! ### URScript -/

namespace UrScript.Draft

/-- The actions that a program reports as rejected. -/
def rejected (draft : Draft) : List (Action Float) :=
  Program.rejected draft.declarations ++ Program.rejected draft.body

@[simp] theorem rejected_write (draft : Draft) (entry : Program.Entry Statement) :
    (draft.write entry).rejected = draft.rejected ++ Program.rejected [entry] := by
  simp [rejected, write]

@[simp] theorem rejected_declare (draft : Draft) (action : Action Float)
    (declarations : List Declaration) :
    (draft.declare (.code action declarations)).rejected = draft.rejected := by
  simp [rejected, declare]

@[simp] theorem rejected_placeTarget (draft : Draft) (inlineTargets : Bool)
    (action : Action Float) (target : Target) :
    (draft.placeTarget inlineTargets action target).2.rejected = draft.rejected := by
  cases inlineTargets
  · exact rejected_declare draft action _
  · rfl

@[simp] theorem rejected_motion (draft : Draft) (inlineTargets : Bool) (v : Visit Float)
    (move : Place Target → Statement) (target? : Option Target) :
    (draft.motion inlineTargets v move target?).rejected = draft.rejected := by
  cases target? <;> simp [motion]

/-- **A step for URScript reports its action if and only if it was rejected.** -/
theorem rejected_step (d : Decimals) (inlineTargets : Bool) (draft : Draft) (v : Visit Float) :
    (step d inlineTargets draft v).rejected = draft.rejected ++ v.rejected := by
  cases ha : v.applied with
  | false => simp [step, ha, Visit.rejected]
  | true =>
    rw [Visit.rejected_of_applied ha, List.append_nil]
    cases hc : v.action.command with
    | setting which value relative => cases which <;> simp [step, ha, hc]
    | attachTool name => cases ht : v.state.tool <;> simp [step, ha, hc, ht]
    | writeDigital pin on toolPin =>
      cases hp : pinNumber? 0 (digitalOutput toolPin).lastPin pin <;> simp [step, ha, hc, hp]
    | writeAnalog pin value toolPin =>
      cases toolPin with
      | true => simp [step, ha, hc]
      | false =>
        cases hp : pinNumber? 0 1 pin with
        | none => simp [step, ha, hc, hp]
        | some n =>
          by_cases hv : (0.0 ≤ value && value ≤ maxVolts) = true <;>
            simp [step, ha, hc, hp, hv]
    | customCode code isDeclaration => cases isDeclaration <;> simp [step, ha, hc]
    | _ => simp [step, ha, hc]

end UrScript.Draft

/-- A URScript program reports the rejections among its visits in their order. -/
theorem UrScript.rejected_draft (d : Decimals) (inlineTargets : Bool)
    (visits : List (Visit Float)) :
    (draft d inlineTargets visits).rejected = visits.flatMap Visit.rejected :=
  Program.foldl_of_step (Draft.rejected_step d inlineTargets) .empty visits

/-! ### G-code -/

namespace GCode.Draft

/-- The actions that a program reports as rejected. -/
def rejected (draft : Draft) : List (Action Float) :=
  Program.rejected draft.preamble ++ Program.rejected draft.body

/-- Heating up before the program starts reports nothing. -/
theorem rejected_preambleEntries (v : Visit Float) : Program.rejected (preambleEntries v) = [] := by
  rw [preambleEntries]
  split <;> rfl

/-- What becomes of an action in a G-code program reports it if it was rejected. -/
theorem rejected_bodyEntries (d : Decimals) (origin : Float) (v : Visit Float) :
    Program.rejected (bodyEntries d origin v) = v.rejected := by
  cases ha : v.applied with
  | false => simp [bodyEntries, ha, Visit.rejected]
  | true =>
    rw [Visit.rejected_of_applied ha]
    -- an applied action gives code or a fault of its pin or value, neither of which reports
    cases hc : v.action.command with
    | setting which value relative => cases which <;> simp [bodyEntries, ha, hc]
    | translation delta relative => cases hp : v.state.position <;> simp [bodyEntries, ha, hc, hp]
    | transformation translation rotation relative first =>
      cases hp : v.state.position <;> simp [bodyEntries, ha, hc, hp]
    | popSettings =>
      cases hb : v.device.stack.beforePop with
      | none => simp [bodyEntries, ha, hc, hb]
      | some before =>
        cases hne : before.acceleration != v.state.settings.acceleration <;>
          simp [bodyEntries, ha, hc, hb, hne]
    | writeDigital pin on toolPin =>
      cases hp : pinNumber? 0 lastPin pin <;> simp [bodyEntries, ha, hc, hp]
    | writeAnalog pin value toolPin =>
      cases hp : pinNumber? 0 lastPin pin with
      | none => simp [bodyEntries, ha, hc, hp]
      | some n =>
        by_cases hv : (0.0 ≤ value && value ≤ 1.0) = true <;> simp [bodyEntries, ha, hc, hp, hv]
    | customCode code isDeclaration => cases isDeclaration <;> simp [bodyEntries, ha, hc]
    | _ => simp [bodyEntries, ha, hc]

/-- **A step for G-code reports its action if and only if it was rejected.** -/
theorem rejected_step (d : Decimals) (draft : Draft) (v : Visit Float) :
    (step d draft v).rejected = draft.rejected ++ v.rejected := by
  simp [step, rejected, rejected_preambleEntries, rejected_bodyEntries]

end GCode.Draft

/-- A G-code program reports the rejections among its visits in their order. -/
theorem GCode.rejected_draft (d : Decimals) (origin : Float) (visits : List (Visit Float)) :
    (draft d origin visits).rejected = visits.flatMap Visit.rejected :=
  Program.foldl_of_step (Draft.rejected_step d) (.start origin) visits

/-! ### All dialects -/

/-- A list of calls reports the rejections among its visits in their order. -/
theorem CallList.rejected_body (visits : List (Visit Float)) :
    Program.rejected (body visits) = visits.flatMap Visit.rejected := by
  induction visits with
  | nil => rfl
  | cons v rest ih =>
    have hsplit : body (v :: rest) = [entry v] ++ body rest := rfl
    rw [List.flatMap_cons, ← ih, hsplit, Program.rejected_append]
    cases ha : v.applied <;> simp [entry, ha, Visit.rejected]

namespace Dialect

/-- **A program reports exactly the rejected actions as rejected**, once each and in
their order. -/
theorem rejected_parts (dialect : Dialect) (d : Decimals) (time name : String)
    (options : ProgramOptions) (cursor : Cursor Float) :
    (dialect.parts d time name options cursor).flatMap (Program.rejected ·.entries) =
      (cursor.visits options.blockOnly).flatMap Visit.rejected := by
  -- fixed lines report nothing, so what is left are the sections of the draft
  cases dialect with
  | rapid =>
    rw [← Rapid.rejected_draft d options.inlineTargets]
    simp [parts, Rapid.parts, Rapid.Draft.rejected]
  | krl =>
    rw [← Krl.rejected_draft d options.inlineTargets cursor.device.state.settings]
    simp [parts, Krl.parts, Krl.Draft.rejected]
  | urscript =>
    rw [← UrScript.rejected_draft d options.inlineTargets]
    simp [parts, UrScript.parts, UrScript.Draft.rejected]
  | gcode =>
    rw [← GCode.rejected_draft d cursor.device.state.extruded]
    simp [parts, GCode.parts, GCode.Draft.rejected]
  | calls =>
    rw [← CallList.rejected_body]
    simp [parts, CallList.parts]

/-- Every part of a program uses the comment mark of its dialect. -/
theorem comment_of_mem_parts {dialect : Dialect} {d : Decimals} {time name : String}
    {options : ProgramOptions} {cursor : Cursor Float} {part : Part}
    (h : part ∈ dialect.parts d time name options cursor) :
    part.look.comment = dialect.comment := by
  revert part
  cases dialect <;>
    simp [parts, Rapid.parts, Krl.parts, UrScript.parts, GCode.parts, CallList.parts, comment,
      Part.of, Part.fixed]

end Dialect

end RobotMotion
