import RobotMotion.Proofs.Device.NonNegative
import RobotMotion.Proofs.Fleet.Run
import RobotMotion.Proofs.Program.Rejections
import RobotMotion.Proofs.Program.Settings

/-!
# The default acceleration in KRL

An acceleration of zero leaves it to the controller. At the start a KRL program assigns the
acceleration only where it is positive, so that nothing is assigned for the default. Where
an acceleration is chosen or taken back later it is assigned as it is.

So all that a program assigns is what `accelerations` lists, and it is positive just where
the visits that tell an acceleration tell a positive one (`accelerations_bound`). Settings
hold no negative number, so that the default is the only value to go wrong. It does where
settings are taken back to those of the beginning (`Fleet.not_positive_briefHurry`).
-/

namespace RobotMotion

namespace Krl

open Program (Entry)

/-- The accelerations that a program assigns: that of the start where it is positive, and
then those that its visits tell. -/
def accelerations (start : Settings Float) (visits : List (Visit Float)) : List Float :=
  (if start.acceleration > 0.0 then [start.acceleration] else []) ++
    visits.filterMap (·.retuned? .acceleration)

/-- The assignment of an acceleration. -/
def assignAcceleration (d : Decimals) (x : Float) : Statement :=
  .acceleration (Decimal.fixed (x / 1000.0) d.mm)

variable {d : Decimals}

/-! ### What is assigned -/

/-- What a run assigns is what its steps do. -/
theorem assignmentsIn_draft (q : Quantity) (inlineTargets : Bool) (start : Settings Float)
    (visits : List (Visit Float)) :
    assignmentsIn q (draft d inlineTargets start visits).body =
      assignmentsIn q (Draft.start d start).body ++
        visits.flatMap fun v => assignmentsOf q (rebound d v) :=
  @Program.foldl_of_step _ _ _ (Draft.step d inlineTargets)
    (fun draft => assignmentsIn q draft.body) _
    (fun draft v => assignmentsIn_step q inlineTargets draft v) (.start d start) visits

theorem assignmentsIn_acceleration_start (start : Settings Float) :
    assignmentsIn .acceleration (Draft.start d start).body =
      (if start.acceleration > 0.0 then [start.acceleration] else []).map
        (assignAcceleration d) := by
  rw [Draft.start, initialChanges]
  split <;> rfl

/-- **A program assigns the accelerations that `accelerations` lists**, one after the other. -/
theorem assignmentsIn_acceleration_draft (inlineTargets : Bool) (start : Settings Float)
    (visits : List (Visit Float)) :
    assignmentsIn .acceleration (draft d inlineTargets start visits).body =
      (accelerations start visits).map (assignAcceleration d) := by
  have hvisit (v : Visit Float) : assignmentsOf .acceleration (rebound d v) =
      ((v.retuned? .acceleration).map (assignAcceleration d)).toList := by
    rw [assignmentsOf_rebound]
    cases v.retuned? .acceleration <;> rfl
  rw [assignmentsIn_draft, assignmentsIn_acceleration_start, accelerations, List.map_append,
    List.map_filterMap, List.filterMap_eq_flatMap_toList]
  simp only [hvisit]

/-! ### Which values are assigned -/

theorem mem_accelerations {start : Settings Float} {visits : List (Visit Float)} {x : Float} :
    x ∈ accelerations start visits ↔
      (start.acceleration > 0.0 ∧ x = start.acceleration) ∨
        ∃ v ∈ visits, v.retuned? .acceleration = some x := by
  rw [accelerations, List.mem_append, List.mem_filterMap]
  refine or_congr ?_ Iff.rfl
  split
  · rename_i hpositive
    exact List.mem_singleton.trans (and_iff_right hpositive).symm
  · rename_i hpositive
    exact iff_of_false List.not_mem_nil fun h => hpositive h.1

/-- All accelerations are positive just where those are that visits tell, since that of the
start is assigned only where it is positive. -/
theorem accelerations_positive_iff (start : Settings Float) (visits : List (Visit Float)) :
    (∀ x ∈ accelerations start visits, x > 0.0) ↔
      ∀ v ∈ visits, (v.retuned? .acceleration).isSome = true →
        v.state.settings.acceleration > 0.0 := by
  constructor
  · intro hall v hv htold
    obtain ⟨x, hx⟩ := Option.isSome_iff_exists.mp htold
    have hpositive := hall x (mem_accelerations.mpr (.inr ⟨v, hv, hx⟩))
    obtain rfl := Visit.eq_of_retuned? hx
    exact hpositive
  · intro hall x hx
    rcases mem_accelerations.mp hx with ⟨hpositive, rfl⟩ | ⟨v, hv, htold⟩
    · exact hpositive
    · obtain rfl := Visit.eq_of_retuned? htold
      exact hall v hv (Option.isSome_iff_exists.mpr ⟨_, htold⟩)

/-- No acceleration below zero is assigned. -/
theorem accelerations_notNegative {device : Device Float} (h : device.NotNegative)
    (actions : List (Action Float)) {x : Float}
    (hx : x ∈ accelerations device.state.settings (device.visits actions)) :
    Scalar.NotNegative x := by
  rcases mem_accelerations.mp hx with ⟨-, rfl⟩ | ⟨v, hv, htold⟩
  · exact h.present .acceleration
  · obtain rfl := Visit.eq_of_retuned? htold
    exact (h.of_mem_visits (by decide +kernel) hv).present .acceleration

/-! ### Programs -/

/-- **A KRL program assigns the acceleration of the start where it is positive, and then
each one that a visit tells, whatever it is.** So an acceleration that is not positive is
assigned just where one is chosen or taken back that is not; if the device never held a
negative number, that is where the controller was to use its own. -/
theorem accelerations_bound (c : Cursor Float) (d : Decimals) (time name : String)
    (options : ProgramOptions) :
    let start := c.device.state.settings
    let visits := c.visits options.blockOnly
    let body := (draft d options.inlineTargets start visits).body
    let look : Program.Look := ⟨comment, dialect, options.comments, 2⟩
    let declarations := look.lines Declaration.text
      (draft d options.inlineTargets start visits).declarations
    (Dialect.krl.program d time name options c).lines =
      ["&ACCESS RVP", "&REL 1"] ++ Program.header time comment (Program.safeName name) dialect ++
        ["", "DEF " ++ Program.safeName name ++ "()"] ++
        (if declarations.isEmpty then [] else declarations ++ [""]) ++
        ["  BAS(#INITMOV, 0)"] ++ look.lines Statement.text body ++ ["END"] ∧
    assignmentsIn .acceleration body = (accelerations start visits).map (assignAcceleration d) ∧
    ((∀ x ∈ accelerations start visits, x > 0.0) ↔
      ∀ v ∈ visits, (v.retuned? .acceleration).isSome = true →
        v.state.settings.acceleration > 0.0) ∧
    (c.device.NotNegative → ∀ x ∈ accelerations start visits, Scalar.NotNegative x) := by
  intro start visits body look declarations
  refine ⟨rfl, ?_, accelerations_positive_iff start visits, fun hdevice x hx => ?_⟩
  · exact assignmentsIn_acceleration_draft options.inlineTargets start visits
  · have hvisits : visits = c.device.visits (c.rehearsal options.blockOnly).queue.pending :=
      c.visits_eq_rehearsal options.blockOnly
    rw [hvisits] at hx
    exact accelerations_notNegative hdevice _ hx

/-- A cursor that starts with an acceleration, and chooses another between brackets. -/
def hurried : Cursor Float where
  name := "arm"
  immediate := false
  child := none
  device :=
    ⟨true, { State.blank .empty with settings := { Settings.standard with acceleration := 250 } },
      .empty⟩
  queue := .ofList
    [⟨1, .pushSettings⟩, ⟨2, .setting .acceleration 500 false⟩, ⟨3, .popSettings⟩]

theorem notNegative_hurried : hurried.device.NotNegative where
  present := by
    intro q
    cases q <;> decide +kernel
  aside := fun _ hs => absurd hs List.not_mem_nil
  beforePop := nofun
  temperatures := fun part _ ht => by cases part <;> cases ht

/-- Here it is positive all along. -/
theorem accelerations_bound_hurried :
    let assigned := accelerations hurried.device.state.settings (hurried.visits false)
    assigned.length = 3 ∧ (∀ x ∈ assigned, x > 0.0) ∧
      ∀ x ∈ assigned, Scalar.NotNegative x := by
  intro assigned
  obtain ⟨-, -, hpositive, hnegative⟩ := accelerations_bound hurried .standard "" "" .standard
  have htold : (hurried.visits false).all (fun v =>
      (v.retuned? .acceleration).isNone || v.state.settings.acceleration > 0.0) = true := by
    decide +kernel
  refine ⟨by decide +kernel, hpositive.mpr fun v hv hsome => ?_, hnegative notNegative_hurried⟩
  have hv := List.all_eq_true.mp htold v hv
  rw [Option.isNone_eq_false_iff.mpr hsome] at hv
  exact of_decide_eq_true hv

end Krl

namespace Fleet

/-- Requests that leave the acceleration to the controller, and choose one between brackets. -/
def briefHurry : List (Operation Float) :=
  [.add "arm" false none [], .start 0 .origin .standard,
    .issue 0 ⟨1, .setting .acceleration 0 false⟩, .issue 0 ⟨2, .pushSettings⟩,
    .issue 0 ⟨3, .setting .acceleration 500 false⟩, .issue 0 ⟨4, .popSettings⟩]

/-- **An acceleration of zero is assigned**, both where it is chosen and where it is taken
back. -/
theorem not_positive_briefHurry :
    ∃ c, (empty.run briefHurry).cursor? 0 = some c ∧
      ((Dialect.krl.program .standard "" "job" .standard c).lines.filter
        (·.startsWith "  $ACC.CP")) =
          ["  $ACC.CP = 0.000", "  $ACC.CP = 0.500", "  $ACC.CP = 0.000"] ∧
      ¬ ∀ x ∈ Krl.accelerations c.device.state.settings (c.visits false), x > 0.0 := by
  have hcomputed : ((empty.run briefHurry).cursor? 0).map (fun c =>
      ((Dialect.krl.program .standard "" "job" .standard c).lines.filter
        (·.startsWith "  $ACC.CP"),
        (Krl.accelerations c.device.state.settings (c.visits false)).all (· > 0.0))) =
      some (["  $ACC.CP = 0.000", "  $ACC.CP = 0.500", "  $ACC.CP = 0.000"], false) := by
    decide +kernel
  obtain ⟨c, hc, hread⟩ := Option.map_eq_some_iff.mp hcomputed
  obtain ⟨hlines, hsome⟩ := Prod.mk.inj hread
  refine ⟨c, hc, hlines, fun hall => ?_⟩
  obtain ⟨x, hx, hnot⟩ := List.all_eq_false.mp hsome
  exact hnot (decide_eq_true (hall x hx))

end Fleet

end RobotMotion
