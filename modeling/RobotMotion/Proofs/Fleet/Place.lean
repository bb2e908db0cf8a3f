import RobotMotion.Proofs.Device.Place
import RobotMotion.Proofs.Device.Sequence
import RobotMotion.Proofs.Fleet.Run

/-!
# Where the devices of a fleet are

What `Device.perform_places` says of one command holds at every moment of a run: a
moment is a beginning of the trace, and `follow` tells how a cursor stands there. In
between requests and in the middle of them alike, the pose of a device is whole, a
started device is somewhere, and a pose that was given up comes back only by an event
that sets it as a whole (`Event.SetsPose`).
-/

namespace RobotMotion.Fleet

variable {α : Type}

/-- Whether an event gives a device a pose without asking for the one before: the
device was started there, or it carried out an absolute transformation. -/
def Event.SetsPose (i : Nat) : Event α → Prop
  | .started j device => j = i ∧ device.state.position.isSome = true
  | .tried j visit => j = i ∧ visit.applied = true ∧ visit.action.command.SetsPose
  | _ => False

variable [Scalar α] {f g : Fleet α} {i : Nat} {c : Cursor α}

/-- A device that can come about is not led astray by a trace. -/
theorem Steps.reachable {t : List (Event α)} (h : Steps f t g) (hc : f.cursor? i = some c)
    (hr : c.device.Reachable) : (follow i c t).device.Reachable := by
  induction h generalizing c with
  | refl f => exact hr
  | head first rest ih => exact ih (first.cursor? hc) (first.reachable hc hr)

/-- What a device tries is what its visit says. -/
theorem Step.visit_eq {v : Visit α} (h : Step f (.tried i v) g) (hc : f.cursor? i = some c) :
    v = c.device.visit v.action := by
  cases h with
  | tried hd action =>
    obtain rfl := Option.some.inj (hc.symm.trans hd)
    rw [Device.visit_action]

/-- An event that brings a pose back sets it as a whole. -/
theorem Step.setsPose {e : Event α} (h : Step f e g) (hc : f.cursor? i = some c)
    (hr : c.device.Reachable) (hnone : c.device.state.position = none)
    (hsome : (e.on i c).device.state.position.isSome = true) : e.SetsPose i := by
  rcases h.device_cases hc with
    ⟨pose, settings, device, rfl, -, hon⟩ | ⟨action, rfl, hon⟩ | ⟨-, hon⟩
  · rw [hon] at hsome
    exact ⟨rfl, hsome⟩
  · rw [hon] at hsome
    cases happlied : (c.device.visit action).applied with
    | false =>
      rw [Device.visit_device_of_rejected happlied, hnone] at hsome
      cases hsome
    | true =>
      refine ⟨rfl, happlied, ?_⟩
      rw [Device.visit_action]
      exact Device.pose_from_nowhere hr.placed (Device.perform_of_applied happlied) hnone hsome
  · rw [hon, hnone] at hsome
    cases hsome

/-- A trace that brings a pose back has an event that sets it as a whole. -/
theorem Steps.exists_setsPose {t : List (Event α)} (h : Steps f t g)
    (hc : f.cursor? i = some c) (hr : c.device.Reachable)
    (hnone : c.device.state.position = none)
    (hsome : (follow i c t).device.state.position.isSome = true) : ∃ e ∈ t, e.SetsPose i := by
  induction h generalizing c with
  | refl f =>
    rw [follow, List.foldl_nil, hnone] at hsome
    cases hsome
  | @head f₁ f₂ f₃ e t first rest ih =>
    cases hp : (e.on i c).device.state.position with
    | some position =>
      have hset := first.setsPose hc hr hnone (by rw [hp]; rfl)
      exact ⟨e, List.mem_cons_self, hset⟩
    | none =>
      obtain ⟨e', he', hset⟩ := ih (first.cursor? hc) (first.reachable hc hr) hp hsome
      exact ⟨e', List.mem_cons_of_mem _ he', hset⟩

/-- **A device is at a pose or at joint angles, and commands change the two as they
should.** For every cursor that comes about, whatever is asked of the fleet from there
on, at every moment of the run:

* the device knows a position exactly if it knows a rotation, and is somewhere once it
  was started;
* an action that applies leaves behind what `Command.Places` says: a pose and no joint
  angles after a cartesian motion, joint angles and no pose after a joint motion, the
  same of the three after a change of tools;
* where the device had no pose at first and has one now, it was started at one in
  between or carried out an absolute transformation. -/
theorem Reachable.place_along_run (hf : f.Reachable) (hc : f.cursor? i = some c)
    (ops : List (Operation α)) :
    Steps f (f.runTrace ops) (f.run ops) ∧
    (f.run ops).cursor? i = some (follow i c (f.runTrace ops)) ∧
    ∀ before after, f.runTrace ops = before ++ after →
      let now := (follow i c before).device
      now.Placed ∧
      (∀ v rest, after = .tried i v :: rest → v.applied = true →
        let next := (follow i c (before ++ [.tried i v])).device
        now.perform v.action.command = .ok next ∧
          v.action.command.Places now.state next.state) ∧
      (c.device.state.position = none → now.state.position.isSome = true →
        ∃ e ∈ before, e.SetsPose i) := by
  have hsteps := run_steps f ops
  have hr := (hf.cursor hc).2
  refine ⟨hsteps, hsteps.cursor? hc, fun before after hsplit => ?_⟩
  intro now
  rw [hsplit] at hsteps
  obtain ⟨g, hbefore, hafter⟩ := hsteps.split
  refine ⟨(hbefore.reachable hc hr).placed, ?_, hbefore.exists_setsPose hc hr⟩
  rintro v rest rfl happlied
  intro next
  cases hafter with
  | head first _ =>
    have hv := first.visit_eq (hbefore.cursor? hc)
    have hnext : next = v.device := by
      simp only [next]
      rw [follow_append]
      simp [follow, Event.on]
    rw [hv] at happlied
    have hperform := Device.perform_of_applied happlied
    rw [← hv, ← hnext] at hperform
    exact ⟨hperform, Device.perform_places hperform⟩

/-- Requests that start a cursor at joint angles alone. -/
def startedAtJoints : List (Operation Float) :=
  [.add "arm" true none [],
    .start 0 ⟨none, none, some ⟨#v[0, 10, 20, 0, 90, 0]⟩, none⟩ .standard]

/-- A step to the side, which needs a pose, and then a pose as a whole. -/
def sidewaysThenThere : List (Operation Float) :=
  [.issue 0 ⟨1, .translation ⟨5, 0, 0⟩ true⟩,
    .issue 0 ⟨2, .transformation ⟨300, 0, 400⟩ .identity false true⟩]

/-- The pose that the cursor has in the end was set as a whole. -/
theorem place_along_run_sidewaysThenThere :
    ∃ c, (empty.run startedAtJoints).cursor? 0 = some c ∧ c.device.state.position = none ∧
      (follow 0 c ((empty.run startedAtJoints).runTrace sidewaysThenThere)).device.Placed ∧
      ∃ e ∈ (empty.run startedAtJoints).runTrace sidewaysThenThere, e.SetsPose 0 := by
  have hstart : ((empty.run startedAtJoints).cursor? 0).map
      (·.device.state.position.isNone) = some true := by decide +kernel
  have hend : (((empty.run startedAtJoints).run sidewaysThenThere).cursor? 0).map
      (·.device.state.position.isSome) = some true := by decide +kernel
  obtain ⟨c, hc, hnone⟩ := Option.map_eq_some_iff.mp hstart
  have hposition : c.device.state.position = none := Option.isNone_iff_eq_none.mp hnone
  obtain ⟨-, hcursor, hmoments⟩ := Reachable.place_along_run ⟨_, rfl⟩ hc sidewaysThenThere
  obtain ⟨hplaced, -, hset⟩ := hmoments _ [] (List.append_nil _).symm
  rw [hcursor] at hend
  exact ⟨c, hc, hposition, hplaced, hset hposition (Option.some.inj hend)⟩

end RobotMotion.Fleet
