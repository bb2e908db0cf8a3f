import RobotMotion.Proofs.Device.Brackets
import RobotMotion.Proofs.Device.Equipment
import RobotMotion.Proofs.Device.Memory

/-!
# Changing tools

A tool is attached in place of another one at once, or after the other one was detached.
Both ways put the flange where the present tool has it and go on from there
(`State.attach_of_detach`), so they leave the same device but for what it remembers
(`Device.swap_eq`). No law of arithmetic is used, and with doubles the two ways agree to
the last bit.
-/

namespace RobotMotion

variable {α : Type} [Scalar α]

namespace State

variable {s t : State α}

/-- Without a pose a tool is only recorded. -/
theorem attach_of_pose?_none (h : s.pose? = none) (tool : Tool α) :
    s.attach tool = { s with tool := some tool } := by
  rw [attach, h]

/-- With a pose the new tool is put on the flange of the present one. -/
theorem attach_of_pose? {position : Vector3 α} {rotation : Rotation α}
    (h : s.pose? = some (position, rotation)) (tool : Tool α) :
    s.attach tool =
      { s.withPose (tool.tipPose (s.flangePose position rotation).1
          (s.flangePose position rotation).2) with tool := some tool } := by
  rw [attach, h]

theorem detach_of_pose?_none {old : Tool α} (hold : s.tool = some old) (h : s.pose? = none) :
    s.detach = .ok { s with tool := none } := by
  simp only [detach, hold, h]

theorem detach_of_pose? {old : Tool α} (hold : s.tool = some old) {position : Vector3 α}
    {rotation : Rotation α} (h : s.pose? = some (position, rotation)) :
    s.detach = .ok { s.withPose (old.flangePose position rotation) with tool := none } := by
  simp only [detach, hold, h]

/-- **A tool goes on the flange that the old one left as it goes on in its place.** -/
theorem attach_of_detach (h : s.detach = .ok t) (tool : Tool α) :
    t.attach tool = s.attach tool := by
  cases hold : s.tool with
  | none =>
    rw [detach, hold] at h
    cases h
  | some old =>
    cases hpose : s.pose? with
    | none =>
      rw [detach_of_pose?_none hold hpose] at h
      obtain rfl := Except.ok.inj h
      have hpose' : State.pose? { s with tool := none } = none := hpose
      rw [attach_of_pose?_none hpose, attach_of_pose?_none hpose']
    | some pose =>
      obtain ⟨position, rotation⟩ := pose
      rw [detach_of_pose? hold hpose] at h
      obtain rfl := Except.ok.inj h
      -- the flange of the old tool is the pose, which no tool moves any further
      have hflange : s.flangePose position rotation = old.flangePose position rotation := by
        rw [flangePose, hold]
      rw [attach_of_pose? hpose, hflange]
      rfl

/-- A tool that is known can be attached. -/
theorem attachNamed_of_find? {name : String} {tool : Tool α} (h : s.tools.find? name = some tool) :
    s.attachNamed name = .ok (s.attach tool) := by
  rw [attachNamed, h]

end State

namespace Device

/-- **Changing tools is detaching and attaching.** With a tool attached, attaching any
tool that is known leaves what detaching first and attaching then leaves, in everything
but the memory of the state before. -/
theorem swap_eq {d : Device α} {name : String} {old tool : Tool α} (hready : d.ready = true)
    (hold : d.state.tool = some old) (hfind : d.state.tools.find? name = some tool) :
    ∃ swapped between attached,
      d.perform (.attachTool name) = .ok swapped ∧
      d.perform .detachTool = .ok between ∧ between.perform (.attachTool name) = .ok attached ∧
      attached.remembering swapped.state.previous = swapped := by
  have hattach : d.state.perform (.attachTool name) = .ok (d.state.attach tool) :=
    State.attachNamed_of_find? hfind
  obtain ⟨t, hdetach⟩ : ∃ t, d.state.perform .detachTool = .ok t :=
    ⟨_, by rw [State.perform, State.detach, hold]⟩
  -- detaching leaves the tools that can be attached alone
  have hagain : t.perform (.attachTool name) = .ok (t.attach tool) := by
    obtain ⟨-, htools⟩ : Command.detachTool.Equips d.state t := State.perform_equips hdetach
    exact State.attachNamed_of_find? (by rw [htools, hfind])
  obtain ⟨between, memory, hbetween, hattached⟩ :=
    perform_perform_of_state hready hdetach rfl hagain rfl
  refine ⟨_, between, _, perform_of_state hready hattach rfl, hbetween, hattached, ?_⟩
  rw [State.attach_of_detach hdetach]
  rfl

/-- A tool with a quaternion of no length at all. -/
def scraper : Tool Float := ⟨"scraper", ⟨0, 5, 80⟩, ⟨0, 0, 0, 0⟩, 0.5, ⟨0, 0, 40⟩⟩

/-- The tool as it is defined anew, with a quaternion that is not of unit length. -/
def longScraper : Tool Float := ⟨"scraper", ⟨0, 0, 120⟩, ⟨0, 2, 0, 0⟩, 0.5, ⟨0, 0, 60⟩⟩

/-- A device at the origin that carried the tool when it was defined anew. -/
def scraperRedefined : Device Float :=
  afterAll ⟨true, { State.blank .empty with
      position := some .zero
      rotation := some .identity }, .empty⟩
    [⟨1, .defineTool scraper⟩, ⟨2, .attachTool "scraper"⟩, ⟨3, .defineTool longScraper⟩]

/-- The tool is changed for its own redefinition where the rotation is not a number. -/
theorem swap_eq_scraperRedefined :
    scraperRedefined.ready = true ∧ scraperRedefined.state.tool = some scraper ∧
      scraperRedefined.state.tools.find? "scraper" = some longScraper ∧
      scraperRedefined.state.rotation.map (·.w.isNaN) = some true ∧
      ∃ swapped between attached,
        scraperRedefined.perform (.attachTool "scraper") = .ok swapped ∧
        scraperRedefined.perform .detachTool = .ok between ∧
        between.perform (.attachTool "scraper") = .ok attached ∧
        attached.remembering swapped.state.previous = swapped := by
  have hready : scraperRedefined.ready = true := by decide +kernel
  have hold : scraperRedefined.state.tool = some scraper := by decide +kernel
  have hfind : scraperRedefined.state.tools.find? "scraper" = some longScraper := by
    decide +kernel
  exact ⟨hready, hold, hfind, by decide +kernel, swap_eq hready hold hfind⟩

end Device

end RobotMotion
