import RobotMotion.Proofs.Program.Targeting

/-!
# Steps of a RAPID module

What RAPID says about its targets (`targeting`), and that a step writes for its visit an
entry without a motion or a motion to the target of the visit
(`Draft.step_sheetWrites`). What a module declares besides targets is its `Rest`: the names
of speeds and zones in a motion depend on it, and on nothing that targets do.
-/

namespace RobotMotion.Rapid

open Program (Entry Place Targeting)

/-- The place of the target is one stretch of the text of a motion. -/
theorem text_move (kind : MoveKind) (place : Place Target) (speed zone tool : String) :
    (Statement.move ⟨kind, place, speed, zone, tool⟩).text =
      (kind.text ++ " ") ++ place.text Target.text ++
        (", " ++ speed ++ ", " ++ zone ++ ", " ++ tool ++ "\\WObj:=WObj0;") := by
  have hmove : (Statement.move ⟨kind, place, speed, zone, tool⟩).text =
      (kind.text ++ " ") ++ place.text Target.text ++ ", " ++ speed ++ ", " ++ zone ++ ", " ++
        tool ++ "\\WObj:=WObj0;" := rfl
  have hgather (front a b c d e f g : String) :
      front ++ a ++ b ++ c ++ d ++ e ++ f ++ g = front ++ (a ++ b ++ c ++ d ++ e ++ f ++ g) := by
    simp only [String.append_assoc]
  rw [hmove, hgather]

/-- What RAPID says about its targets. -/
def targeting (d : Decimals) : Targeting Statement TargetDeclaration Target where
  pose? := poseTarget? d
  joints? := jointTarget? d
  place? := fun
    | .move m => some m.place
    | _ => none
  withPlace place := fun
    | .move m => .move { m with place }
    | statement => statement
  declared? x := some (x.index, x.target)
  literal := Target.text
  text := Statement.text
  declaration := TargetDeclaration.text
  isSome_pose? _ := Option.isSome_map
  isSome_joints? _ := Option.isSome_map
  place?_withPlace place s h := by
    cases s with
    | move m => rfl
    | _ => cases h
  withPlace_self place s h := by
    cases s with
    | move m =>
      obtain rfl := Option.some.inj h
      rfl
    | _ => cases h
  withPlace_withPlace _ _ s := by cases s <;> rfl
  withPlace_of_none place s h := by
    cases s with
    | move m => cases h
    | _ => rfl
  text_withPlace s h := by
    cases s with
    | move m =>
      obtain ⟨kind, _, speed, zone, tool⟩ := m
      exact ⟨_, _, fun place => text_move kind place speed zone tool⟩
    | _ => cases h
  declaration_eq x k t h := by
    obtain ⟨rfl, rfl⟩ := Prod.mk.inj (Option.some.inj h)
    exact ⟨"CONST " ++ x.target.type ++ " ", " := ", ";", rfl⟩

/-- The name of a zone, and the names given so far. -/
def zoneFor (d : Decimals) (zones : NameTable) (radius : Float) : String × NameTable :=
  if radius ≤ 0.0 then ("fine", zones) else zones.nameFor "zone" (zoneData d radius)

/-- The motion of a visit, where names were given before. -/
def moveOf (d : Decimals) (v : Visit Float) (kind : MoveKind) (speeds zones : NameTable)
    (place : Place Target) : Statement :=
  .move ⟨kind, place, (speeds.nameFor "vel" (speedData d v.state.settings.speed)).1,
    (zoneFor d zones v.state.settings.precision).1, toolName v.state⟩

/-- What a module declares besides targets. -/
structure Rest where
  speeds : NameTable
  zones : NameTable
  tools : List ToolDeclaration
  customDeclarations : List String

namespace Draft

/-- The parts of a module that targets stand in. -/
def sheet (draft : Draft) : Program.Sheet Statement TargetDeclaration :=
  ⟨draft.targets, draft.body, draft.motions⟩

/-- What a module declares besides targets. -/
def rest (draft : Draft) : Rest :=
  ⟨draft.speeds, draft.zones, draft.tools, draft.customDeclarations⟩

/-- A way of writing that does to a module what may be written for a visit. -/
abbrev SheetWrites (d : Decimals) (known : Rest) (v : Visit Float) :
    (Bool → Draft → Draft) → Prop :=
  (targeting d).Writes sheet rest known v

variable {d : Decimals} {known : Rest} {v : Visit Float}

/-- Code without a motion may be written for a visit that leads to no target. -/
theorem writes_code {statements : List Statement} (happlied : v.applied = true)
    (hgoal : (targeting d).goal? v = none)
    (hmotions : (targeting d).motions [.code v.action statements] = []) :
    SheetWrites d known v fun _ draft => draft.write (.code v.action statements) :=
  .entry (.code happlied _) hmotions hgoal fun _ _ => ⟨rfl, rfl⟩

/-- So may a diagnostic. -/
theorem writes_diagnostic {what : Program.Diagnostic} (hgoal : (targeting d).goal? v = none) :
    SheetWrites d known v fun _ draft => draft.write (.diagnostic v.action what) :=
  .entry (.diagnostic what) rfl hgoal fun _ _ => ⟨rfl, rfl⟩

/-- A tool may be declared besides. -/
theorem writes_tool {t : ToolDeclaration} (hgoal : (targeting d).goal? v = none) :
    SheetWrites d known v fun _ draft => { draft with tools := draft.tools ++ [t] } := by
  refine ⟨_, { known with tools := known.tools ++ [t] }, .nothing hgoal, ?_⟩
  rintro _ draft rfl
  exact ⟨rfl, rfl⟩

/-- So may custom code. -/
theorem writes_custom {text : String} (hgoal : (targeting d).goal? v = none) :
    SheetWrites d known v fun _ draft =>
      { draft with customDeclarations := draft.customDeclarations ++ [text] } := by
  refine ⟨_, { known with customDeclarations := known.customDeclarations ++ [text] },
    .nothing hgoal, ?_⟩
  rintro _ draft rfl
  exact ⟨rfl, rfl⟩

theorem zoneName_eq (draft : Draft) (d : Decimals) (radius : Float) :
    draft.zoneName d radius =
      ((zoneFor d draft.zones radius).1,
        { draft with zones := (zoneFor d draft.zones radius).2 }) := by
  rw [zoneName, zoneFor]
  split <;> rfl

/-- A motion without a target is reported; else it is written in place or by name. The
names of its speed and zone depend on the names given before. -/
theorem writes_motion {kind : MoveKind} {target? : Option Target}
    (hgoal : (targeting d).goal? v = target?) :
    SheetWrites d known v fun inlineTargets draft =>
      draft.motion d inlineTargets v kind target? := by
  cases target? with
  | none => exact writes_diagnostic hgoal
  | some target =>
    -- the place in the statement is filled in where it is written, in place or by name
    let statement := moveOf d v kind known.speeds known.zones (.named 0)
    let after : Rest :=
      { known with
        speeds := (known.speeds.nameFor "vel" (speedData d v.state.settings.speed)).2
        zones := (zoneFor d known.zones v.state.settings.precision).2 }
    refine ⟨_, after, .move statement target (⟨·, target⟩) rfl (fun _ => rfl) hgoal, ?_⟩
    rintro inlineTargets draft rfl
    simp only [motion, speedName, zoneName_eq]
    cases inlineTargets <;> exact ⟨rfl, rfl⟩

/-- **A step writes what may be written for its visit.** -/
theorem step_sheetWrites (d : Decimals) (known : Rest) (v : Visit Float) :
    SheetWrites d known v fun inlineTargets draft => step d inlineTargets draft v := by
  cases ha : v.applied with
  | false =>
    have hgoal := Targeting.goal?_of_rejected (T := targeting d) ha
    simp only [step, ha, Bool.not_false, if_true]
    exact writes_diagnostic hgoal
  | true =>
    have hgoal := Targeting.goal?_of_applied (T := targeting d) ha
    simp only [step, ha, Bool.not_true, Bool.false_eq_true, if_false]
    -- the step asks for the command first, and so does the goal of the visit
    generalize hc : v.action.command = command at hgoal
    cases command <;> dsimp only at hgoal ⊢
    case translation | rotation | transformation | axes => exact writes_motion hgoal
    case setting which value relative =>
      cases which with
      | acceleration => exact writes_code ha hgoal rfl
      | extrusionRate => exact writes_diagnostic hgoal
      | speed | precision => exact .nothing hgoal
    case popSettings =>
      split
      · split
        · exact writes_code ha hgoal rfl
        · exact .nothing hgoal
      · exact .nothing hgoal
    case writeDigital pin on toolPin =>
      split
      · exact writes_code ha hgoal rfl
      · exact writes_diagnostic hgoal
    case writeAnalog pin value toolPin =>
      split
      · exact writes_code ha hgoal rfl
      · exact writes_diagnostic hgoal
    case defineTool t => exact writes_tool hgoal
    case customCode text isDeclaration =>
      cases isDeclaration with
      | true => exact writes_custom hgoal
      | false => exact writes_code ha hgoal rfl
    case wait | comment | message => exact writes_code ha hgoal rfl
    case temperature | extrusion | initialization => exact writes_diagnostic hgoal
    case motionMode | referenceFrame | pushSettings | externalAxis | attachTool | detachTool =>
      exact .nothing hgoal

/-- **What a step writes is about its visit.** -/
theorem step_body (d : Decimals) (inlineTargets : Bool) (draft : Draft) (v : Visit Float) :
    ∃ added, (step d inlineTargets draft v).body = draft.body ++ added ∧ Program.Share v added :=
  (step_sheetWrites d draft.rest v).body inlineTargets rfl

/-- So is what it declares. -/
theorem step_targets (d : Decimals) (inlineTargets : Bool) (draft : Draft) (v : Visit Float) :
    ∃ declared, (step d inlineTargets draft v).targets = draft.targets ++ declared ∧
      Program.Share v declared :=
  (step_sheetWrites d draft.rest v).declarations inlineTargets rfl

end Draft

/-- **A module with its targets in place and one with named targets are alike**, and
declare the same besides. -/
theorem alike_draft (d : Decimals) (visits : List (Visit Float)) :
    (targeting d).Alike ((targeting d).goals visits) (draft d true visits).sheet
        (draft d false visits).sheet ∧
      (draft d false visits).rest = (draft d true visits).rest :=
  Targeting.alike_foldl (Draft.step_sheetWrites d) .empty visits

end RobotMotion.Rapid
