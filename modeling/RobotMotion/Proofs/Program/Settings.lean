import RobotMotion.Proofs.Cursor.Rehearsal
import RobotMotion.Proofs.Decimal.Equality
import RobotMotion.Proofs.Device.Brackets
import RobotMotion.Proofs.Device.Watch
import RobotMotion.Proofs.Program.Steps.Krl

/-!
# Settings in KRL

A KRL program assigns settings at three places: at the start, where a setting is chosen,
and where settings are taken back. `rebound` says once what is assigned for a visit, and
`last_rebound` that this keeps up with the device: a setting is assigned its present value,
or it is the same as before.

So at all times the last assignment of each setting is that of its present value
(`InForce.step`, and `inForce_draft` for a run). Only an acceleration that was not positive
at the start may have none yet.
-/

namespace RobotMotion

open Decimal (Same)

namespace Krl

open Program (Entry)

/-- The setting that a statement assigns, if it assigns one. -/
def Statement.assigned? : Statement → Option Quantity
  | .speed _ => some .speed
  | .acceleration _ => some .acceleration
  | .blending _ => some .precision
  | _ => none

/-- The assignments of a setting. -/
def assignmentsOf (q : Quantity) (statements : List Statement) : List Statement :=
  statements.filter (·.assigned? = some q)

/-- The assignments of a setting among some entries. -/
def assignmentsIn (q : Quantity) (entries : List (Entry Statement)) : List Statement :=
  assignmentsOf q (entries.flatMap Entry.statements)

/-- The last statement among some entries that assigns a setting. -/
def lastAssignment? (q : Quantity) (entries : List (Entry Statement)) : Option Statement :=
  (assignmentsOf q (entries.flatMap Entry.statements)).getLast?

/-- What is assigned for a visit: the setting that was chosen, or those that changed when
settings were taken back. -/
def rebound (d : Decimals) (v : Visit Float) : List Statement :=
  if v.applied then
    match v.action.command with
    | .setting which .. =>
      (assignment? d (.quantity which (v.state.settings.quantity which))).toList
    | .popSettings =>
      match v.device.stack.beforePop with
      | some before => (v.state.settings.changesSince before).filterMap (assignment? d)
      | none => []
    | _ => []
  else []

/-- The last assignment of each setting is that of its present value. Only an acceleration
may have none, where it is still the same as at the start and not positive. -/
def InForce (d : Decimals) (start present : Settings Float) (entries : List (Entry Statement)) :
    Prop :=
  ∀ q, lastAssignment? q entries = assignment? d (.quantity q (present.quantity q)) ∨
    q = .acceleration ∧ lastAssignment? q entries = none ∧
      Same present.acceleration start.acceleration ∧ ¬ start.acceleration > 0.0

variable {d : Decimals}

/-- Assignments are found in a list of entries piece by piece. -/
theorem assignmentsIn_append (q : Quantity) (entries more : List (Entry Statement)) :
    assignmentsIn q (entries ++ more) = assignmentsIn q entries ++ assignmentsIn q more := by
  rw [assignmentsIn, assignmentsOf, List.flatMap_append, List.filter_append]
  rfl

/-! ### Assignments -/

/-- The same value is assigned by the same statement. -/
theorem assignment?_of_same (q : Quantity) {a b : Float} (h : Same a b) :
    assignment? d (.quantity q a) = assignment? d (.quantity q b) := by
  -- doubles that compare as equal differ in the sign of a zero at most, which no text shows
  rcases h with rfl | h
  · rfl
  · cases q with
    | speed | acceleration =>
      simp only [assignment?, Decimal.fixed_thousandth_of_beq h]
    | precision => simp only [assignment?, Decimal.fixed_of_beq h]
    | extrusionRate => rfl

/-- One setting is assigned by its own statement, if it has a variable. -/
theorem assignmentsOf_quantity (q which : Quantity) (value : Float) :
    assignmentsOf q ([.quantity which value].filterMap (assignment? d)) =
      if which = q then (assignment? d (.quantity q value)).toList else [] := by
  cases which <;> cases q <;> rfl

/-- Of the settings that changed each is assigned once. -/
theorem assignmentsOf_changesSince (q : Quantity) (after before : Settings Float) :
    assignmentsOf q ((after.changesSince before).filterMap (assignment? d)) =
      if after.quantity q == before.quantity q then []
      else (assignment? d (.quantity q (after.quantity q))).toList := by
  -- of the four quantities only the one that is asked for is assigned here
  have hquantity (which : Quantity) :
      assignmentsOf q ((if after.quantity which == before.quantity which then []
          else [.quantity which (after.quantity which)]).filterMap (assignment? d)) =
        if which = q then
          if after.quantity q == before.quantity q then []
          else (assignment? d (.quantity q (after.quantity q))).toList
        else [] := by
    have hassign := assignmentsOf_quantity (d := d) q which (after.quantity which)
    by_cases hq : which = q
    · subst hq
      rw [if_pos rfl] at hassign ⊢
      split
      · rfl
      · exact hassign
    · rw [if_neg hq] at hassign ⊢
      split
      · rfl
      · exact hassign
  -- neither the kind of motion nor the frame has a variable
  have hmotion : ((if after.motion = before.motion then [] else
      [SettingChange.motion after.motion]).filterMap (assignment? d)) = [] := by
    split <;> rfl
  have hframe : ((if after.frame = before.frame then [] else
      [SettingChange.frame after.frame]).filterMap (assignment? d)) = [] := by
    split <;> rfl
  have happend (l m : List Statement) :
      assignmentsOf q (l ++ m) = assignmentsOf q l ++ assignmentsOf q m := List.filter_append _ _
  simp only [Settings.changesSince, List.filterMap_append, happend, hquantity, hmotion, hframe]
  cases q <;> simp [assignmentsOf]

/-! ### One visit -/

/-- A rejected action assigns nothing. -/
theorem rebound_of_rejected {v : Visit Float} (h : v.applied = false) : rebound d v = [] :=
  if_neg (by rw [h]; exact Bool.false_ne_true)

/-- An applied one assigns what its command says. -/
theorem rebound_of_applied {v : Visit Float} (h : v.applied = true) :
    rebound d v = match v.action.command with
      | .setting which .. =>
        (assignment? d (.quantity which (v.state.settings.quantity which))).toList
      | .popSettings =>
        match v.device.stack.beforePop with
        | some before => (v.state.settings.changesSince before).filterMap (assignment? d)
        | none => []
      | _ => [] :=
  if_pos h

/-- What is assigned to a setting for a visit is what the visit tells of it. -/
theorem assignmentsOf_rebound (v : Visit Float) (q : Quantity) :
    assignmentsOf q (rebound d v) =
      ((v.retuned? q).bind fun x => assignment? d (.quantity q x)).toList := by
  cases ha : v.applied with
  | false =>
    rw [rebound_of_rejected ha, Visit.retuned?_of_rejected ha]
    rfl
  | true =>
    rw [rebound_of_applied ha, Visit.retuned?_of_applied ha]
    cases v.action.command with
    | setting which value relative =>
      have hsingle (x : Float) : (assignment? d (.quantity which x)).toList =
          [.quantity which x].filterMap (assignment? d) := by
        cases which <;> rfl
      dsimp only
      rw [hsingle, assignmentsOf_quantity]
      by_cases hq : which = q
      · subst hq
        rw [if_pos rfl, if_pos rfl]
        rfl
      · rw [if_neg hq, if_neg hq]
        rfl
    | popSettings =>
      cases v.device.stack.beforePop with
      | none => rfl
      | some before =>
        -- the device is asked what changed the other way round
        have hsymm : (v.state.settings.quantity q == before.quantity q) =
            (before.quantity q == v.state.settings.quantity q) :=
          Bool.eq_iff_iff.mpr ⟨Decimal.beq_symm, Decimal.beq_symm⟩
        dsimp only
        rw [assignmentsOf_changesSince, hsymm, bne]
        cases before.quantity q == v.state.settings.quantity q with
        | true => rfl
        | false => rfl
    | _ => rfl

/-- So the last assignment for a visit is that of the value the visit tells, if it tells one. -/
theorem getLast?_rebound (v : Visit Float) (q : Quantity) :
    (assignmentsOf q (rebound d v)).getLast? =
      (v.retuned? q).bind fun x => assignment? d (.quantity q x) := by
  rw [assignmentsOf_rebound]
  cases (v.retuned? q).bind fun x => assignment? d (.quantity q x) <;> rfl

/-- **What is assigned for a visit keeps up with the device**: a setting is assigned its
present value, or nothing is assigned to it and it is the same as before. -/
theorem last_rebound (device : Device Float) (action : Action Float) (q : Quantity) :
    let v := device.visit action
    let last := (assignmentsOf q (rebound d v)).getLast?
    last = assignment? d (.quantity q (v.state.settings.quantity q)) ∨
      last = none ∧ Same (v.state.settings.quantity q) (device.state.settings.quantity q) := by
  intro v last
  have hlast : last = (v.retuned? q).bind fun x => assignment? d (.quantity q x) :=
    getLast?_rebound v q
  rcases Device.retuned?_visit q device action with htold | ⟨hnone, hsame⟩
  · left
    rw [hlast, htold, Option.bind_some]
  · right
    rw [hlast, hnone]
    exact ⟨rfl, hsame⟩

/-! ### Steps -/

/-- An entry adds the assignments among its statements. -/
theorem assignmentsIn_write {q : Quantity} {entry : Entry Statement}
    (assigned : List Statement) (draft : Draft)
    (h : assignmentsOf q entry.statements = assignmentsOf q assigned) :
    assignmentsIn q (draft.write entry).body =
      assignmentsIn q draft.body ++ assignmentsOf q assigned := by
  rw [Draft.write, assignmentsIn_append, ← h, assignmentsIn, assignmentsIn,
    List.flatMap_singleton]

/-- An entry without any adds none. -/
theorem assignmentsIn_write_of_nil {q : Quantity} {entry : Entry Statement} (draft : Draft)
    (h : assignmentsOf q entry.statements = []) :
    assignmentsIn q (draft.write entry).body = assignmentsIn q draft.body := by
  rw [assignmentsIn_write [] draft h]
  exact List.append_nil _

/-- A motion assigns nothing. -/
theorem assignmentsIn_motion (q : Quantity) (draft : Draft) (inlineTargets : Bool)
    (v : Visit Float) {move : Program.Place Target → Bool → Statement}
    (hmove : move = .moveLinear ∨ move = .movePoint) (target? : Option Target) :
    assignmentsIn q (draft.motion inlineTargets v move target?).body =
      assignmentsIn q draft.body := by
  cases target? with
  | none => exact assignmentsIn_write_of_nil draft rfl
  | some target =>
    obtain rfl | rfl := hmove <;> cases inlineTargets <;>
      exact assignmentsIn_write_of_nil _ rfl

/-- **A step assigns what `rebound` says.** -/
theorem assignmentsIn_step (q : Quantity) (inlineTargets : Bool) (draft : Draft)
    (v : Visit Float) :
    assignmentsIn q (draft.step d inlineTargets v).body =
      assignmentsIn q draft.body ++ assignmentsOf q (rebound d v) := by
  cases ha : v.applied with
  | false =>
    have hrebound := rebound_of_rejected (d := d) ha
    simp only [Draft.step, ha, Bool.not_false, if_true]
    exact assignmentsIn_write _ draft (by rw [hrebound]; rfl)
  | true =>
    have hrebound := rebound_of_applied (d := d) ha
    simp only [Draft.step, ha, Bool.not_true, Bool.false_eq_true, if_false]
    rw [hrebound]
    -- command by command what is written is an entry with the assignments, another entry or nothing
    generalize hc : v.action.command = command
    cases command <;> dsimp only
    case translation | rotation | transformation =>
      refine (assignmentsIn_motion q draft inlineTargets v ?_ _).trans (List.append_nil _).symm
      cases v.state.settings.motion with
      | linear => exact .inl rfl
      | joint => exact .inr rfl
    case axes =>
      rw [assignmentsIn_motion q draft inlineTargets v (.inr rfl)]
      exact (List.append_nil _).symm
    case setting which value relative =>
      cases which with
      | extrusionRate => exact assignmentsIn_write [] draft rfl
      | speed | acceleration | precision => exact assignmentsIn_write _ draft rfl
    case popSettings =>
      cases v.device.stack.beforePop with
      | none => exact (List.append_nil _).symm
      | some before => exact assignmentsIn_write _ draft rfl
    case attachTool name =>
      split
      · exact assignmentsIn_write [] draft rfl
      · exact assignmentsIn_write [] draft rfl
    case writeDigital pin on toolPin =>
      split
      · exact assignmentsIn_write [] draft rfl
      · exact assignmentsIn_write [] draft rfl
    case writeAnalog pin value toolPin =>
      split
      · exact assignmentsIn_write [] draft rfl
      · split
        · exact assignmentsIn_write [] draft rfl
        · exact assignmentsIn_write [] draft rfl
    case customCode text isDeclaration =>
      cases isDeclaration with
      | true => exact (List.append_nil _).symm
      | false => exact assignmentsIn_write [] draft rfl
    case detachTool | wait | comment | message | temperature | extrusion | initialization =>
      exact assignmentsIn_write [] draft rfl
    case motionMode | referenceFrame | pushSettings | externalAxis | defineTool =>
      exact (List.append_nil _).symm

/-- After a step the last assignment is that of the step, or else the one before. -/
theorem lastAssignment?_step (q : Quantity) (inlineTargets : Bool) (draft : Draft)
    (v : Visit Float) :
    lastAssignment? q (draft.step d inlineTargets v).body =
      ((assignmentsOf q (rebound d v)).getLast?).or (lastAssignment? q draft.body) :=
  (congrArg List.getLast? (assignmentsIn_step q inlineTargets draft v)).trans
    List.getLast?_append

/-! ### Runs -/

/-- Only the extrusion rate has no variable. -/
theorem assignment?_eq_none_iff {q : Quantity} {value : Float} :
    assignment? d (.quantity q value) = none ↔ q = .extrusionRate := by
  cases q <;> simp [assignment?]

/-- **At the start the settings of the device are assigned**, and an acceleration if it is positive.
-/
theorem inForce_start (d : Decimals) (settings : Settings Float) :
    InForce d settings settings (Draft.start d settings).body := by
  intro q
  rw [Draft.start, initialChanges]
  by_cases hpositive : settings.acceleration > 0.0
  · rw [if_pos hpositive]
    left
    cases q <;> rfl
  · rw [if_neg hpositive]
    cases q with
    | acceleration => exact .inr ⟨rfl, rfl, .inl rfl, hpositive⟩
    | speed | precision | extrusionRate => exact .inl rfl

/-- **A step keeps the assignments those of the settings in force.** -/
theorem InForce.step {start : Settings Float} {device : Device Float} {draft : Draft}
    (h : InForce d start device.state.settings draft.body) (inlineTargets : Bool)
    (action : Action Float) :
    InForce d start (device.visit action).state.settings
      (draft.step d inlineTargets (device.visit action)).body := by
  intro q
  rw [lastAssignment?_step]
  rcases last_rebound (d := d) device action q with hassigned | ⟨hnone, hsame⟩
  · rw [hassigned]
    generalize (device.visit action).state.settings.quantity q = value
    cases hpresent : assignment? d (.quantity q value) with
    | some statement => exact .inl rfl
    | none =>
      -- there is no variable for this setting, so it had no assignment before either
      obtain rfl := assignment?_eq_none_iff.mp hpresent
      rcases h .extrusionRate with hlast | ⟨hq, -⟩
      · exact .inl hlast
      · cases hq
  -- nothing was assigned and the value is the same, so the assignment before still stands
  · rw [hnone, Option.none_or]
    rcases h q with hlast | ⟨rfl, hlast, hstart, hpositive⟩
    · left
      rw [hlast, assignment?_of_same q hsame]
    · exact .inr ⟨rfl, hlast, hsame.trans hstart, hpositive⟩

/-- **A run keeps the assignments those of the settings in force.** -/
theorem inForce_foldl {start : Settings Float} {device : Device Float} {draft : Draft}
    (h : InForce d start device.state.settings draft.body) (inlineTargets : Bool)
    (actions : List (Action Float)) :
    InForce d start (device.afterAll actions).state.settings
      ((device.visits actions).foldl (Draft.step d inlineTargets) draft).body := by
  -- over the actions, as device and draft go from one to the next together
  induction actions generalizing device draft with
  | nil => exact h
  | cons action rest ih => exact ih (h.step inlineTargets action)

/-- After the visits of a run the assignments are those of the settings after the last. -/
theorem inForce_draft (device : Device Float) (actions : List (Action Float))
    (inlineTargets : Bool) {past future : List (Visit Float)} {v : Visit Float}
    (hvisits : device.visits actions = past ++ v :: future) :
    InForce d device.state.settings v.state.settings
      (draft d inlineTargets device.state.settings (past ++ [v])).body := by
  -- the visits up to this one are those of the first actions, so its device is where these end
  have htake : device.visits (actions.take (past.length + 1)) = past ++ [v] := by
    rw [Device.visits_take, hvisits, List.take_length_add_append]
    rfl
  have hlast : device.afterAll (actions.take (past.length + 1)) = v.device := by
    rw [Device.afterAll_eq, htake, List.getLast?_concat]
    rfl
  have hrun := inForce_foldl (inForce_start d device.state.settings) inlineTargets
    (actions.take (past.length + 1))
  rw [hlast, htake] at hrun
  exact hrun

/-- No assignment comes of a motion. -/
theorem rebound_of_goal {v : Visit Float} (h : ((targeting d).goal? v).isSome = true) :
    rebound d v = [] := by
  cases happlied : v.applied with
  | false => exact rebound_of_rejected happlied
  | true =>
    rw [Program.Targeting.goal?_of_applied happlied] at h
    rw [rebound_of_applied happlied]
    -- commands that assign something lead to no target
    cases hc : v.action.command with
    | setting | popSettings =>
      rw [hc] at h
      cases h
    | _ => rfl

/-- Where a motion stands, the assignments before it are those of the settings in force. -/
theorem inForce_before {start : Settings Float} {draft : Draft} {v : Visit Float}
    {inlineTargets : Bool} (hgoal : ((targeting d).goal? v).isSome = true)
    (h : InForce d start v.state.settings (draft.step d inlineTargets v).body) :
    InForce d start v.state.settings draft.body := by
  intro q
  have hq := h q
  rw [lastAssignment?_step, rebound_of_goal hgoal] at hq
  exact hq

/-- **A KRL program assigns the settings in force.** A program consists of the lines that are
listed. Take any motion in its body. It is that of a visit, and of what is assigned before it,
the last speed and the last blending are those of the settings that this visit has, and so is
the last acceleration. No acceleration is assigned before it only where the present one is
still the same as at the start, and not positive. -/
theorem settings_assigned (c : Cursor Float) (d : Decimals) (time name : String)
    (options : ProgramOptions) {before after : List (Entry Statement)} {entry : Entry Statement}
    (hbody : (draft d options.inlineTargets c.device.state.settings
      (c.visits options.blockOnly)).body = before ++ entry :: after)
    (hmotion : (targeting d).motions [entry] ≠ []) :
    let start := c.device.state.settings
    let body (visits : List (Visit Float)) : List (Entry Statement) :=
      (draft d options.inlineTargets start visits).body
    let look : Program.Look := ⟨comment, dialect, options.comments, 2⟩
    let declarations := look.lines Declaration.text
      (draft d options.inlineTargets start (c.visits options.blockOnly)).declarations
    (Dialect.krl.program d time name options c).lines =
      ["&ACCESS RVP", "&REL 1"] ++ Program.header time comment (Program.safeName name) dialect ++
        ["", "DEF " ++ Program.safeName name ++ "()"] ++
        (if declarations.isEmpty then [] else declarations ++ [""]) ++
        ["  BAS(#INITMOV, 0)"] ++ look.lines Statement.text (before ++ entry :: after) ++
        ["END"] ∧
    ∃ past v future, c.visits options.blockOnly = past ++ v :: future ∧ v.applied = true ∧
      before = body past ∧ (∃ motion, entry = .code v.action [motion]) ∧
      let present := v.state.settings
      (lastAssignment? .speed before).map Statement.text =
          some ("$VEL.CP = " ++ Decimal.fixed (present.speed / 1000.0) d.mm) ∧
        (lastAssignment? .precision before).map Statement.text =
          some ("$APO.CDIS = " ++ Decimal.fixed present.precision d.mm) ∧
        match lastAssignment? .acceleration before with
        | some assignment =>
          assignment.text = "$ACC.CP = " ++ Decimal.fixed (present.acceleration / 1000.0) d.mm
        | none => Same present.acceleration start.acceleration ∧ ¬ start.acceleration > 0.0 := by
  intro start body look declarations
  refine ⟨?_, ?_⟩
  · rw [← hbody]
    rfl
  have hvisits := c.visits_eq_rehearsal options.blockOnly
  have hstart : (targeting d).motions (Draft.start d start).sheet.body = [] :=
    motions_start d start
  obtain ⟨past, v, future, hsplit, hbefore, hgoal, hentry⟩ :=
    Program.Targeting.exists_visit_of_motion (fun _ v => Draft.step_sheetWrites d v)
      hstart options.inlineTargets hbody hmotion
  have happlied : v.applied = true := by
    cases ha : v.applied with
    | true => rfl
    | false =>
      rw [Program.Targeting.goal?_of_rejected ha] at hgoal
      cases hgoal
  refine ⟨past, v, future, hsplit, happlied, hbefore, hentry, ?_⟩
  -- the visits up to the motion assign what is in force after it, and it assigns nothing itself
  have hall := inForce_draft (d := d) c.device _ options.inlineTargets (hvisits.symm.trans hsplit)
  rw [draft, List.foldl_concat] at hall
  have hforce : InForce d start v.state.settings before := by
    rw [hbefore]
    exact inForce_before hgoal hall
  refine ⟨?_, ?_, ?_⟩
  · rcases hforce .speed with hlast | ⟨hq, -⟩
    · rw [hlast]
      rfl
    · cases hq
  · rcases hforce .precision with hlast | ⟨hq, -⟩
    · rw [hlast]
      rfl
    · cases hq
  · rcases hforce .acceleration with hlast | ⟨-, hlast, hsame, hpositive⟩
    · rw [hlast]
      rfl
    · rw [hlast]
      exact ⟨hsame, hpositive⟩

/-- A cursor where a speed is chosen between brackets, one bracket too many is closed, and
then the device moves. -/
def takenBack : Cursor Float where
  name := "arm"
  immediate := false
  child := none
  device :=
    ⟨true, { State.blank .empty with position := some .zero, rotation := some .identity }, .empty⟩
  queue := .ofList
    [⟨1, .pushSettings⟩, ⟨2, .setting .speed 50 false⟩, ⟨3, .popSettings⟩, ⟨4, .popSettings⟩,
      ⟨5, .translation ⟨1, 0, 0⟩ true⟩]

/-- Before the motion the last speed that is assigned is that of the beginning again. -/
theorem settings_assigned_takenBack :
    let body :=
      (draft .standard true takenBack.device.state.settings (takenBack.visits false)).body
    ∃ before entry after, body = before ++ entry :: after ∧ entry.action?.map (·.id) = some 5 ∧
      (lastAssignment? .speed before).map Statement.text = some "$VEL.CP = 0.020" := by
  intro body
  let isMotion (e : Entry Statement) : Bool := !((targeting .standard).motions [e]).isEmpty
  have hfound : (body.find? isMotion).map (fun e => e.action?.map (·.id)) = some (some 5) := by
    decide +kernel
  have hspeed : (takenBack.visits false).all (fun v => v.action.id ≠ 5 ||
      Decimal.fixed (v.state.settings.speed / 1000.0) 3 == "0.020") = true := by
    decide +kernel
  -- the motion is found by computing, and what stands before it is told by the theorem
  obtain ⟨entry, hfind, hid⟩ := Option.map_eq_some_iff.mp hfound
  obtain ⟨hmotion, before, after, hbody, -⟩ := List.find?_eq_some_iff_append.mp hfind
  have hsome : (targeting .standard).motions [entry] ≠ [] := by
    rintro hnone
    simp [isMotion, hnone] at hmotion
  obtain ⟨-, past, v, future, hvisits, -, -, ⟨_, rfl⟩, hlast, -⟩ :=
    settings_assigned takenBack .standard "" "" .standard hbody hsome
  refine ⟨before, _, after, hbody, hid, ?_⟩
  have hv : v ∈ takenBack.visits false := by
    rw [show takenBack.visits false = _ from hvisits]
    exact List.mem_append_right _ List.mem_cons_self
  have hpresent := List.all_eq_true.mp hspeed v hv
  have hfive : v.action.id = 5 := Option.some.inj hid
  rw [hfive] at hpresent
  have htext : Decimal.fixed (v.state.settings.speed / 1000.0) 3 = "0.020" := by
    simpa using hpresent
  rw [hlast]
  exact congrArg (fun text => some ("$VEL.CP = " ++ text)) htext

end Krl

end RobotMotion
