import RobotMotion.Proofs.Program.Targeting

/-!
# Steps of a KRL program

What KRL says about its targets (`targeting`), and that a step writes for its visit an
entry without a motion, a declaration, or a motion to the target of the visit
(`Draft.step_sheetWrites`).
-/

namespace RobotMotion.Krl

open Program (Entry Place Targeting)

/-- What KRL says about its targets. -/
def targeting (d : Decimals) : Targeting Statement Declaration Target where
  pose? := poseTarget? d
  joints? := jointTarget? d
  place? := fun
    | .moveLinear place _ | .movePoint place _ => some place
    | _ => none
  withPlace place := fun
    | .moveLinear _ blended => .moveLinear place blended
    | .movePoint _ blended => .movePoint place blended
    | statement => statement
  declared? := fun
    | .target index target => some (index, target)
    | .custom _ => none
  literal := Target.text
  text := Statement.text
  declaration := Declaration.text
  isSome_pose? _ := Option.isSome_map
  isSome_joints? _ := Option.isSome_map
  place?_withPlace place s h := by
    cases s with
    | moveLinear | movePoint => rfl
    | _ => cases h
  withPlace_self place s h := by
    cases s with
    | moveLinear | movePoint =>
      obtain rfl := Option.some.inj h
      rfl
    | _ => cases h
  withPlace_withPlace _ _ s := by cases s <;> rfl
  withPlace_of_none place s h := by
    cases s with
    | moveLinear | movePoint => cases h
    | _ => rfl
  text_withPlace s h := by
    cases s with
    | moveLinear _ blended => exact ⟨"LIN ", if blended then " C_DIS" else "", fun _ => rfl⟩
    | movePoint _ blended => exact ⟨"PTP ", if blended then " C_PTP" else "", fun _ => rfl⟩
    | _ => cases h
  declaration_eq x k t h := by
    cases x with
    | target index target =>
      obtain ⟨rfl, rfl⟩ := Prod.mk.inj (Option.some.inj h)
      exact ⟨"DECL " ++ target.type ++ " ", " = ", "", (String.append_empty).symm⟩
    | custom => cases h

namespace Draft

/-- The parts of a program that targets stand in, which is all of it. -/
def sheet (draft : Draft) : Program.Sheet Statement Declaration :=
  ⟨draft.declarations, draft.body, draft.motions⟩

/-- A way of writing that does to a program what may be written for a visit. -/
abbrev SheetWrites (d : Decimals) (v : Visit Float) : (Bool → Draft → Draft) → Prop :=
  (targeting d).Writes sheet (fun _ => ()) () v

variable {d : Decimals} {v : Visit Float}

theorem writes_code {statements : List Statement} (happlied : v.applied = true)
    (hgoal : (targeting d).goal? v = none)
    (hmotions : (targeting d).motions [.code v.action statements] = []) :
    SheetWrites d v fun _ draft => draft.write (.code v.action statements) :=
  .entry (.code happlied _) hmotions hgoal fun _ _ => ⟨rfl, rfl⟩

theorem writes_diagnostic {what : Program.Diagnostic} (hgoal : (targeting d).goal? v = none) :
    SheetWrites d v fun _ draft => draft.write (.diagnostic v.action what) :=
  .entry (.diagnostic what) rfl hgoal fun _ _ => ⟨rfl, rfl⟩

theorem writes_declaration {declarations : List Declaration} (happlied : v.applied = true)
    (hgoal : (targeting d).goal? v = none)
    (hdeclared : (targeting d).declared [.code v.action declarations] = []) :
    SheetWrites d v fun _ draft => draft.declare (.code v.action declarations) :=
  ⟨_, (), .declaration _ (.code happlied _) hdeclared hgoal, fun _ _ _ => ⟨rfl, rfl⟩⟩

/-- A motion without a target is reported; else it is written in place or by name. -/
theorem writes_motion {move : Place Target → Bool → Statement} {target? : Option Target}
    (hmove : move = .moveLinear ∨ move = .movePoint)
    (hgoal : (targeting d).goal? v = target?) :
    SheetWrites d v fun inlineTargets draft => draft.motion inlineTargets v move target? := by
  cases target? with
  | none => exact writes_diagnostic hgoal
  | some target =>
    let statement := move (.named 0) (v.state.settings.precision > 0.0)
    have hstatement : ((targeting d).place? statement).isSome = true := by
      obtain rfl | rfl := hmove <;> rfl
    refine ⟨_, (), .move statement target (.target · target) hstatement (fun _ => rfl) hgoal,
      fun inlineTargets draft _ => ⟨?_, rfl⟩⟩
    obtain rfl | rfl := hmove <;> cases inlineTargets <;> rfl

/-- Assignments of settings are no motions. -/
theorem motions_assign (d : Decimals) (action : Action Float)
    (changes : List (SettingChange Float)) :
    (targeting d).motions [.code action (changes.filterMap (assignment? d))] = [] := by
  have hnone : (changes.filterMap (assignment? d)).filterMap (targeting d).place? = [] := by
    refine List.filterMap_eq_nil_iff.mpr fun s hs => ?_
    obtain ⟨change, -, hchange⟩ := List.mem_filterMap.mp hs
    cases change with
    | quantity which value => cases which <;> cases hchange <;> rfl
    | motion | frame => cases hchange
  rw [Targeting.motions, Program.readings, List.flatMap_singleton, Entry.statements, hnone,
    List.map_nil]

/-- **A step writes what may be written for its visit.** -/
theorem step_sheetWrites (d : Decimals) (v : Visit Float) :
    SheetWrites d v fun inlineTargets draft => step d inlineTargets draft v := by
  cases ha : v.applied with
  | false =>
    have hgoal := Targeting.goal?_of_rejected (T := targeting d) ha
    simp only [step, ha, Bool.not_false, if_true]
    exact writes_diagnostic hgoal
  | true =>
    have hgoal := Targeting.goal?_of_applied (T := targeting d) ha
    simp only [step, ha, Bool.not_true, Bool.false_eq_true, if_false]
    generalize hc : v.action.command = command at hgoal
    cases command <;> dsimp only at hgoal ⊢
    case translation | rotation | transformation =>
      -- the way of interpolating decides which motion it is
      cases v.state.settings.motion with
      | linear => exact writes_motion (.inl rfl) hgoal
      | joint => exact writes_motion (.inr rfl) hgoal
    case axes => exact writes_motion (.inr rfl) hgoal
    case setting which value relative =>
      cases which with
      | extrusionRate => exact writes_diagnostic hgoal
      | speed | acceleration | precision => exact writes_code ha hgoal rfl
    case popSettings =>
      split
      · exact writes_code ha hgoal (motions_assign d _ _)
      · exact .nothing hgoal
    case attachTool name =>
      split
      · exact writes_diagnostic hgoal
      · exact writes_code ha hgoal rfl
    case writeDigital pin on toolPin =>
      split
      · exact writes_code ha hgoal rfl
      · exact writes_diagnostic hgoal
    case writeAnalog pin value toolPin =>
      split
      · exact writes_diagnostic hgoal
      · split
        · exact writes_code ha hgoal rfl
        · exact writes_diagnostic hgoal
    case customCode text isDeclaration =>
      cases isDeclaration with
      | true => exact writes_declaration ha hgoal rfl
      | false => exact writes_code ha hgoal rfl
    case detachTool | wait | comment => exact writes_code ha hgoal rfl
    case message | temperature | extrusion | initialization => exact writes_diagnostic hgoal
    case motionMode | referenceFrame | pushSettings | externalAxis | defineTool =>
      exact .nothing hgoal

/-- **What a step writes is about its visit.** -/
theorem step_body (d : Decimals) (inlineTargets : Bool) (draft : Draft) (v : Visit Float) :
    ∃ added, (step d inlineTargets draft v).body = draft.body ++ added ∧ Program.Share v added :=
  (step_sheetWrites d v).body inlineTargets rfl

/-- So is what it declares. -/
theorem step_declarations (d : Decimals) (inlineTargets : Bool) (draft : Draft) (v : Visit Float) :
    ∃ declared, (step d inlineTargets draft v).declarations = draft.declarations ++ declared ∧
      Program.Share v declared :=
  (step_sheetWrites d v).declarations inlineTargets rfl

end Draft

theorem motions_start (d : Decimals) (settings : Settings Float) :
    (targeting d).motions (Draft.start d settings).body = [] := by
  rw [Draft.start, initialChanges]
  split <;> rfl

/-- **A program with its targets in place and one with named targets are alike.** -/
theorem alike_draft (d : Decimals) (settings : Settings Float) (visits : List (Visit Float)) :
    (targeting d).Alike ((targeting d).goals visits) (draft d true settings visits).sheet
      (draft d false settings visits).sheet := by
  have hmotions := motions_start d settings
  have hstart : (targeting d).Alike [] (Draft.start d settings).sheet
      (Draft.start d settings).sheet :=
    ⟨hmotions, hmotions, rfl, rfl, rfl, rfl, fun _ => .refl _ _, rfl⟩
  exact (Targeting.alike_foldl (fun _ v => Draft.step_sheetWrites d v) hstart visits).1

end RobotMotion.Krl
