import RobotMotion.Proofs.Device.Pose
import RobotMotion.Proofs.Device.Sequence

/-!
# Tools at hand

The tools at hand are the attached one and those that can be attached. Commands attach
only tools that are known, and only definitions make tools known: `Command.Equips` says
once what each command does. So whatever tool comes to hand in a run was at hand at the
start or is defined by an applied action of the run (`Device.toolsAtHand_visits`).
-/

namespace RobotMotion

variable {α : Type}

namespace Registry

variable {β : Type} (r : Registry β) {name : String} {value : β}

/-- What goes by a name in a registry is registered. -/
theorem mem_values_of_find? (h : r.find? name = some value) : value ∈ r.values := by
  obtain ⟨front, rest, hentries, -⟩ := List.lookup_eq_some_iff.mp h
  rw [values, hentries]
  simp

/-- An entry that is put in its place is the only new one. -/
theorem mem_place {entry : String × β} {entries : List (String × β)}
    (h : entry ∈ place name value entries) : entry = (name, value) ∨ entry ∈ entries := by
  induction entries with
  | nil => exact .inl (List.mem_singleton.mp h)
  | cons first rest ih =>
    rw [place] at h
    split at h
    · rcases List.mem_cons.mp h with h | h
      · exact .inl h
      · exact .inr (List.mem_cons_of_mem _ h)
    · split at h
      · rcases List.mem_cons.mp h with h | h
        · exact .inl h
        · exact .inr h
      · rcases List.mem_cons.mp h with h | h
        · exact .inr (h ▸ List.mem_cons_self)
        · exact (ih h).imp_right (List.mem_cons_of_mem _)

/-- Registering a value brings in this value alone. -/
theorem mem_values_insert {other : β} (h : other ∈ (r.insert name value).values) :
    other = value ∨ other ∈ r.values := by
  obtain ⟨entry, hentry, rfl⟩ := List.mem_map.mp h
  rcases mem_place hentry with rfl | hentry
  · exact .inl rfl
  · exact .inr (List.mem_map_of_mem hentry)

end Registry

/-- The attached tool, and the tools that can be attached. -/
def State.toolsAtHand (s : State α) : List (Tool α) := s.tool.toList ++ s.tools.values

/-- What carrying out a command makes of the tools. -/
def Command.Equips (s t : State α) : Command α → Prop
  | .defineTool tool => t.tool = s.tool ∧ t.tools = s.tools.insert tool.name tool
  | .attachTool name => t.tool = s.tools.find? name ∧ t.tools = s.tools
  | .detachTool => t.tool = none ∧ t.tools = s.tools
  | _ => t.tool = s.tool ∧ t.tools = s.tools

/-- Only the tool of a definition comes to hand anew. -/
theorem Command.Equips.toolsAtHand {s t : State α} {command : Command α}
    (h : command.Equips s t) {tool : Tool α} (ht : tool ∈ t.toolsAtHand) :
    tool ∈ s.toolsAtHand ∨ command = .defineTool tool := by
  have hkept (htool : t.tool = s.tool) (htools : t.tools = s.tools) : tool ∈ s.toolsAtHand := by
    rw [State.toolsAtHand, htool, htools] at ht
    exact ht
  cases command with
  | defineTool defined =>
    obtain ⟨htool, htools⟩ := h
    rw [State.toolsAtHand, htool, htools] at ht
    rcases List.mem_append.mp ht with ht | ht
    · exact .inl (List.mem_append_left _ ht)
    · rcases s.tools.mem_values_insert ht with rfl | ht
      · exact .inr rfl
      · exact .inl (List.mem_append_right _ ht)
  | attachTool name =>
    obtain ⟨htool, htools⟩ := h
    rw [State.toolsAtHand, htool, htools] at ht
    rcases List.mem_append.mp ht with ht | ht
    · exact .inl (List.mem_append_right _ (s.tools.mem_values_of_find? (Option.mem_toList.mp ht)))
    · exact .inl (List.mem_append_right _ ht)
  | detachTool =>
    obtain ⟨htool, htools⟩ := h
    rw [State.toolsAtHand, htool, htools] at ht
    exact .inl (List.mem_append_right _ ht)
  | _ => exact .inl (hkept h.1 h.2)

variable [Scalar α]

namespace State

variable {s t : State α}

omit [Scalar α] in
/-- A change of tool leaves the tools that can be attached alone. -/
theorem Remounts.equips {tool : Option (Tool α)} (h : s.Remounts tool t) :
    t.tool = tool ∧ t.tools = s.tools := by
  obtain rfl | ⟨-, _, rfl⟩ := h <;> exact ⟨rfl, rfl⟩

theorem perform_equips {command : Command α} (h : s.perform command = .ok t) :
    command.Equips s t := by
  cases command with
  | translation delta relative =>
    obtain ⟨_, _, rfl, -⟩ := translate_eq_ok h
    exact ⟨rfl, rfl⟩
  | rotation delta relative =>
    obtain ⟨_, _, rfl, -⟩ := rotate_eq_ok h
    exact ⟨rfl, rfl⟩
  | transformation translation delta relative first =>
    obtain ⟨_, _, rfl, -⟩ := transform_eq_ok h
    exact ⟨rfl, rfl⟩
  | axes joints relative =>
    obtain ⟨_, rfl⟩ := moveAxes_eq_ok h
    exact ⟨rfl, rfl⟩
  | externalAxis index value target relative =>
    obtain ⟨_, _, rfl⟩ := moveExternal_eq_ok h
    exact ⟨rfl, rfl⟩
  | attachTool name =>
    obtain ⟨tool, hfind, rfl⟩ := attachNamed_eq_ok h
    obtain ⟨htool, htools⟩ := (s.remounts_attach tool).equips
    exact ⟨htool.trans hfind.symm, htools⟩
  | detachTool => exact (detach_eq_ok h).equips
  | _ =>
    obtain rfl := Except.ok.inj h
    exact ⟨rfl, rfl⟩

end State

namespace Device

variable {d e : Device α}

/-- **Carrying out a command does to the tools what `Command.Equips` says.** -/
theorem perform_equips {command : Command α} (h : d.perform command = .ok e) :
    command.Equips d.state e.state := by
  obtain ⟨-, state, stack, ha, rfl⟩ := perform_eq_ok h
  have hremembered (hequips : command.Equips d.state state) :
      command.Equips d.state { state with previous := d.state.snapshot } := by
    cases command <;> exact hequips
  refine hremembered ?_
  obtain ⟨rfl, rfl, -⟩ | ⟨rfl, _, _, -, rfl, -⟩ | ⟨hs, -⟩ := advance_eq_ok ha
  · exact ⟨rfl, rfl⟩
  · exact ⟨rfl, rfl⟩
  · exact State.perform_equips hs

/-- After a tool was attached there is one. -/
theorem isSome_tool_of_attachTool {name : String} (h : d.perform (.attachTool name) = .ok e) :
    e.state.tool.isSome = true := by
  obtain ⟨-, state, _, ha, rfl⟩ := perform_eq_ok h
  obtain ⟨hc, -⟩ | ⟨hc, -⟩ | ⟨hs, -⟩ := advance_eq_ok ha
  · cases hc
  · cases hc
  · obtain ⟨tool, -, rfl⟩ := State.attachNamed_eq_ok hs
    exact Option.isSome_of_eq_some (d.state.remounts_attach tool).equips.1

end Device

/-- The tool that a visit makes known. -/
def Visit.definedTool (v : Visit α) : List (Tool α) :=
  match v.applied, v.action.command with
  | true, .defineTool tool => [tool]
  | _, _ => []

namespace Device

/-- A visit brings to hand the tool that it defines and no other. -/
theorem toolsAtHand_visit (d : Device α) (action : Action α) {tool : Tool α}
    (h : tool ∈ (d.visit action).state.toolsAtHand) :
    tool ∈ d.state.toolsAtHand ∨ tool ∈ (d.visit action).definedTool := by
  cases ha : (d.visit action).applied with
  | false =>
    rw [Visit.state, visit_device_of_rejected ha] at h
    exact .inl h
  | true =>
    refine ((perform_equips (perform_of_applied ha)).toolsAtHand h).imp_right fun hc => ?_
    rw [Visit.definedTool, ha, visit_action, hc]
    exact List.mem_singleton_self tool

/-- **A tool at hand in a run was at hand at the start or is defined in the run.** -/
theorem toolsAtHand_visits (d : Device α) (actions : List (Action α)) {v : Visit α}
    (hv : v ∈ d.visits actions) {tool : Tool α} (h : tool ∈ v.state.toolsAtHand) :
    tool ∈ d.state.toolsAtHand ∨ tool ∈ (d.visits actions).flatMap Visit.definedTool := by
  induction actions generalizing d with
  | nil => cases hv
  | cons action rest ih =>
    rw [visits, List.flatMap_cons]
    rcases List.mem_cons.mp hv with rfl | hv
    · exact (d.toolsAtHand_visit action h).imp_right (List.mem_append_left _)
    -- at hand when the rest begins is what the first visit left at hand
    · rcases ih _ hv with h | h
      · exact (d.toolsAtHand_visit action h).imp_right (List.mem_append_left _)
      · exact .inr (List.mem_append_right _ h)

end Device

end RobotMotion
