import RobotMotion.Proofs.Program.Completeness
import RobotMotion.Proofs.Program.Steps.Krl
import RobotMotion.Proofs.Program.Steps.Rapid
import RobotMotion.Proofs.Program.Steps.UrScript
import RobotMotion.Proofs.Wire.Motions

/-!
# Every motion is written and sent

A motion that applies is nowhere left out for want of a target: no program reports that
something is missing (`Dialect.complete_parts`), and in a stream of texts there is one frame
for it, which carries the identifier of the action (`Protocol.exists_move_delivery`).
-/

namespace RobotMotion

/-- Whether an order is one for a motion. -/
def Order.isMove : Order → Bool
  | .move .. => true
  | .wait _ => false

/-- What comes of an action is a motion exactly if the action is one and applied. -/
theorem Visit.any_isMove_order? {v : Visit Float} (hv : v.Complete) (d : Decimals) :
    (v.order? d).any Order.isMove = (v.applied && v.action.command.isMotion) := by
  cases happlied : v.applied with
  | false => simp [order?, happlied]
  | true =>
    have hleft := hv happlied
    cases hc : v.action.command with
    | translation | rotation | transformation =>
      rw [hc] at hleft
      obtain ⟨pose, hpose⟩ := Option.isSome_iff_exists.mp hleft
      simp [order?, happlied, hc, Rapid.poseTarget?, hpose, Command.isMotion, Order.isMove]
    | axes joints relative =>
      rw [hc] at hleft
      obtain ⟨angles, hangles⟩ := Option.isSome_iff_exists.mp hleft
      simp [order?, happlied, hc, Rapid.jointTarget?, hangles, Command.isMotion, Order.isMove]
    | _ => simp [order?, happlied, hc, Command.isMotion, Order.isMove]

namespace Wire

open Program (Part)

/-- Whether a message is a frame that asks for a motion, as its opcode tells. -/
def Abb.isMove (m : Message) : Bool := (order? m).any Order.isMove

namespace Protocol

/-- **Among the messages for a visit there is one frame for a motion**, if the action is a
motion and applied, and else there is none. -/
theorem countP_isMove_delivery {v : Visit Float} (hv : v.Complete) :
    (abb.delivery v).messages.countP Abb.isMove =
      if v.applied && v.action.command.isMotion then 1 else 0 := by
  have hread : (abb.delivery v).messages.countP Abb.isMove =
      ((abb.delivery v).messages.filterMap Abb.order?).countP Order.isMove := by
    rw [List.countP_filterMap]
    refine congrArg (List.countP · _) (funext fun m => ?_)
    rw [Abb.isMove]
    cases Abb.order? m <;> rfl
  rw [hread, orders_delivery, ← Visit.any_isMove_order? hv .standard]
  cases v.order? .standard with
  | none => rfl
  | some order => exact List.countP_singleton

/-- **A motion that applied is sent in one frame**, which carries its identifier. -/
theorem exists_move_delivery {v : Visit Float} (hv : v.Complete) (happlied : v.applied = true)
    (hmotion : v.action.command.isMotion = true) :
    ∃ frame : Abb.Frame, (abb.delivery v).messages = [frame.message] ∧
      frame.id = v.action.id := by
  have hpop : v.action.command ≠ .popSettings := by
    intro hpop
    rw [hpop] at hmotion
    cases hmotion
  have hmessages : (abb.delivery v).messages = (abb.encode? v.action v.state).toList := by
    rw [delivery, happlied]
    exact messages_of_ne hpop v.device
  have hleft := hv happlied
  rw [hmessages, encode?, Abb.frame?]
  cases hc : v.action.command with
  | translation | rotation | transformation =>
    rw [hc] at hleft
    obtain ⟨⟨position, rotation⟩, hpose⟩ := Option.isSome_iff_exists.mp hleft
    simp only [hpose]
    exact ⟨_, rfl, rfl⟩
  | axes joints relative =>
    rw [hc] at hleft
    obtain ⟨angles, hangles⟩ := Option.isSome_iff_exists.mp hleft
    simp only [hangles]
    exact ⟨_, rfl, rfl⟩
  | _ =>
    rw [hc] at hmotion
    cases hmotion

variable {f : Fleet Float} {i : Nat} {c : Cursor Float}

/-- **Nothing that applied is missing.** Whatever a cursor went through and whatever waits
there:

* in the programs for it, in every dialect and with every choice, no entry says that a
  target, a position or a tool is missing, and the lines are those of the entries;
* where the rehearsal has a motion apply, the state has the pose or the joint angles that
  the motion leads to, so that every dialect with targets has one for it, and where the
  rehearsal has a tool attached there is one;
* a call for the next messages in texts sends one frame for a motion that it releases and
  that applies, with the identifier of the action, and otherwise no frame for a motion. -/
theorem nothing_missing (hc : f.cursor? i = some c) :
    (∀ (dialect : Dialect) (d : Decimals) (time name : String) (options : ProgramOptions),
      (dialect.program d time name options c).lines =
        (dialect.parts d time name options c).flatMap Part.lines ∧
      (∀ part ∈ dialect.parts d time name options c, ∀ entry ∈ part.entries,
        entry.isShortage = false) ∧
      ∀ v ∈ c.visits options.blockOnly, v.Complete ∧
        (v.applied = true → v.action.command.isMotion = true →
          ((Rapid.targeting d).goal? v).isSome = true ∧
          ((Krl.targeting d).goal? v).isSome = true ∧
          ((UrScript.targeting d).goal? v).isSome = true)) ∧
    ∀ a rest, c.queue.pending = a :: rest →
      ∃ messages g applied, abb.stream? f i = some (messages, g) ∧
        f.next? i = some ((a, applied), g) ∧
        messages.countP Abb.isMove = (if applied && a.command.isMotion then 1 else 0) ∧
        (applied = true → a.command.isMotion = true →
          ∃ frame : Abb.Frame, messages = [frame.message] ∧ frame.id = a.id) := by
  refine ⟨fun dialect d time name options => ⟨dialect.lines_program d time name options c,
    dialect.complete_parts d time name options c, fun v hv => ?_⟩, fun a rest hp => ?_⟩
  · rw [Cursor.visits_eq_rehearsal] at hv
    refine ⟨c.device.complete_visits _ v hv, fun happlied hmotion => ?_⟩
    obtain ⟨device, a, rfl⟩ := Device.exists_of_mem_visits hv
    rw [Device.visit_action] at hmotion
    simp [Program.Targeting.isSome_goal?, happlied, hmotion]
  · obtain ⟨g, queue, hstream, hnext, -⟩ := stream?_eq abb hc hp
    have hcomplete := c.device.complete_visit a
    have hcount := countP_isMove_delivery hcomplete
    have hframe := exists_move_delivery hcomplete
    rw [Device.visit_action] at hcount hframe
    exact ⟨_, g, _, hstream, hnext, hcount, hframe⟩

/-- Requests for a line, a tool and joint angles. Without a pose the last motion is rejected,
and a comment says what no diagnostic says. -/
def lineToolJoints : List (Fleet.Operation Float) :=
  [.add "arm" false none [⟨"nozzle", ⟨0, 0, 100⟩, .identity, 1.5, ⟨0, 0, 50⟩⟩],
    .start 0 .origin .standard, .issue 0 ⟨1, .translation ⟨300, 0, 400⟩ false⟩,
    .issue 0 ⟨2, .attachTool "nozzle"⟩, .issue 0 ⟨3, .axes ⟨.replicate 6 7.5⟩ false⟩,
    .issue 0 ⟨4, .comment "no target available for motion"⟩,
    .issue 0 ⟨5, .rotation .identity true⟩]

/-- Only the last motion is rejected, and the first call sends the line. -/
theorem nothing_missing_lineToolJoints :
    ∃ c messages g, (Fleet.empty.run lineToolJoints).cursor? 0 = some c ∧
      (c.visits false).map (·.applied) = [true, true, true, true, false] ∧
      (∀ part ∈ Dialect.krl.parts .standard "" "" .standard c, ∀ entry ∈ part.entries,
        entry.isShortage = false) ∧
      abb.stream? (Fleet.empty.run lineToolJoints) 0 = some (messages, g) ∧
      messages.countP Abb.isMove = 1 := by
  have hstands : ((Fleet.empty.run lineToolJoints).cursor? 0).map (fun c =>
      ((c.visits false).map (·.applied), c.queue.pending.head?,
        (c.device.visit ⟨1, .translation ⟨300, 0, 400⟩ false⟩).applied)) =
      some ([true, true, true, true, false], some ⟨1, .translation ⟨300, 0, 400⟩ false⟩, true) := by
    decide +kernel
  obtain ⟨c, hc, hfacts⟩ := Option.map_eq_some_iff.mp hstands
  obtain ⟨hvisits, hhead, happlies⟩ : _ ∧ _ ∧ _ := by
    simpa only [Prod.mk.injEq] using hfacts
  obtain ⟨rest, hp⟩ := List.head?_eq_some_iff.mp hhead
  obtain ⟨hprograms, hcalls⟩ := nothing_missing hc
  obtain ⟨messages, g, applied, hstream, hnext, hcount, -⟩ := hcalls _ _ hp
  obtain ⟨g', queue, -, hnext', -⟩ := stream?_eq abb hc hp
  obtain ⟨⟨-, happlied⟩, -⟩ : (_ ∧ applied = _) ∧ _ := by
    simpa only [Option.some.injEq, Prod.mk.injEq] using hnext.symm.trans hnext'
  rw [happlied, happlies] at hcount
  exact ⟨c, messages, g, hc, hvisits, (hprograms .krl .standard "" "" .standard).2.1, hstream,
    hcount⟩

end Protocol

end Wire

end RobotMotion
