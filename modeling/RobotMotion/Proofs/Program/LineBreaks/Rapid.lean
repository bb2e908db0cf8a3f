import RobotMotion.Proofs.Program.Module

/-!
# RAPID modules on unbroken lines

Names, numbers and targets are unbroken whatever the state of the device is, so a module
is unbroken where the texts in its actions are (`Rapid.unbroken_draft`).
-/

namespace RobotMotion

open Program (Entry Place)
open Text (unbroken_append)

namespace Rapid

/-- What stands between brackets is unbroken if all its items are. -/
theorem unbroken_bracketed {items : List String} (h : ∀ t ∈ items, Text.Unbroken t) :
    Text.Unbroken (bracketed items) := by
  have hopen : Text.Unbroken "[" := by decide
  have hclose : Text.Unbroken "]" := by decide
  rw [bracketed]
  simp only [unbroken_append]
  exact ⟨⟨hopen, Text.unbroken_intercalate (by decide) h⟩, hclose⟩

theorem unbroken_externalTexts (d : Decimals) (axes : Option (ExternalAxes Float)) :
    ∀ t ∈ externalTexts d axes, Text.Unbroken t := by
  refine Program.unbroken_externalTexts axes fun v => ?_
  cases v with
  | none =>
    show Text.Unbroken "9E9"
    decide
  | some x => exact Text.unbroken_fixed x d.mm

/-- Targets from poses are made of numbers. -/
theorem unbroken_poseTarget? {d : Decimals} {s : State Float} {target : Target}
    (h : poseTarget? d s = some target) : Text.Unbroken target.text := by
  obtain ⟨⟨position, rotation⟩, -, rfl⟩ := Option.map_eq_some_iff.mp h
  refine unbroken_bracketed ?_
  simp only [List.forall_mem_cons]
  exact ⟨unbroken_bracketed (Program.unbroken_map_fixed _ _),
    unbroken_bracketed (Program.unbroken_map_fixed _ _), by decide,
    unbroken_bracketed (unbroken_externalTexts d _), nofun⟩

/-- So are targets from joint angles. -/
theorem unbroken_jointTarget? {d : Decimals} {s : State Float} {target : Target}
    (h : jointTarget? d s = some target) : Text.Unbroken target.text := by
  obtain ⟨joints, -, rfl⟩ := Option.map_eq_some_iff.mp h
  refine unbroken_bracketed ?_
  simp only [List.forall_mem_cons]
  exact ⟨unbroken_bracketed (Program.unbroken_map_fixed _ _),
    unbroken_bracketed (unbroken_externalTexts d _), nofun⟩

/-- Speeds are numbers in brackets. -/
theorem unbroken_speedData (d : Decimals) (speed : Float) : Text.Unbroken (speedData d speed) := by
  refine unbroken_bracketed ?_
  simp only [List.forall_mem_cons, Text.unbroken_fixed, true_and]
  decide

/-- So are zones. -/
theorem unbroken_zoneData (d : Decimals) (radius : Float) : Text.Unbroken (zoneData d radius) := by
  refine unbroken_bracketed ?_
  simp only [List.forall_mem_cons, Text.unbroken_fixed, true_and]
  decide

/-- **A tool is declared on one line**: its name is made into an identifier. -/
theorem unbroken_toolDeclaration (d : Decimals) (tool : Tool Float) :
    Text.Unbroken (toolDeclaration d tool).text := by
  have hpoint (v : Vector3 Float) : Text.Unbroken (bracketed (pointTexts d v)) :=
    unbroken_bracketed (Program.unbroken_map_fixed _ _)
  have hrotation (q : Rotation Float) : Text.Unbroken (bracketed (rotationTexts d q)) :=
    unbroken_bracketed (Program.unbroken_map_fixed _ _)
  have hframe : Text.Unbroken (bracketed [bracketed (pointTexts d tool.tcpPosition),
      bracketed (rotationTexts d tool.tcpOrientation)]) := by
    refine unbroken_bracketed ?_
    simp only [List.forall_mem_cons]
    exact ⟨hpoint _, hrotation _, nofun⟩
  have hload : Text.Unbroken (bracketed [Decimal.fixed (toolWeight tool.weight) d.kg,
      bracketed (pointTexts d tool.centerOfGravity), "[1,0,0,0]", "0", "0", "0"]) := by
    have hrest : ∀ t ∈ ["[1,0,0,0]", "0", "0", "0"], Text.Unbroken t := by decide
    refine unbroken_bracketed ?_
    rw [List.forall_mem_cons, List.forall_mem_cons]
    exact ⟨Text.unbroken_fixed _ _, hpoint _, hrest⟩
  have hdata : Text.Unbroken (toolDeclaration d tool).data := by
    have htrue : Text.Unbroken "TRUE" := by decide
    refine unbroken_bracketed ?_
    rw [List.forall_mem_cons, List.forall_mem_cons, List.forall_mem_singleton]
    exact ⟨htrue, hframe, hload⟩
  have hname : Text.Unbroken (toolDeclaration d tool).name := Program.unbroken_safeName _
  dsimp only [ToolDeclaration.text]
  simp only [unbroken_append, hname, hdata, and_true]
  decide

theorem unbroken_toolName (s : State Float) : Text.Unbroken (toolName s) := by
  rw [toolName]
  split
  · exact Program.unbroken_safeName _
  · decide

/-- A motion is unbroken where the names in it are. -/
theorem unbroken_move {m : Move} (hplace : Text.Unbroken (m.place.text Target.text))
    (hspeed : Text.Unbroken m.speed) (hzone : Text.Unbroken m.zone)
    (htool : Text.Unbroken m.tool) : Text.Unbroken (Statement.move m).text := by
  have hkind : Text.Unbroken m.kind.text := by cases m.kind <;> decide
  dsimp only [Statement.text]
  simp only [unbroken_append, hkind, hplace, hspeed, hzone, htool, and_true, true_and]
  decide

/-- Whether the names and values of a table stand on one line. -/
def NameTable.Unbroken (t : NameTable) : Prop :=
  ∀ e ∈ t.entries, Text.Unbroken e.1 ∧ Text.Unbroken e.2

/-- A table that gives out one more name stays unbroken. -/
theorem NameTable.Unbroken.nameFor {t : NameTable} (h : t.Unbroken) {stem value : String}
    (hstem : Text.Unbroken stem) (hvalue : Text.Unbroken value) :
    Text.Unbroken (t.nameFor stem value).1 ∧ (t.nameFor stem value).2.Unbroken := by
  rw [NameTable.nameFor]
  split
  · rename_i name _ hfind
    exact ⟨(h _ (List.mem_of_find?_eq_some hfind)).1, h⟩
  · have hname : Text.Unbroken (stem ++ Decimal.natural t.entries.length) :=
      unbroken_append.mpr ⟨hstem, Text.unbroken_natural _⟩
    exact ⟨hname, Program.forall_mem_concat h ⟨hname, hvalue⟩⟩

namespace Draft

/-- Whether everything in a module stands on one line. -/
structure Unbroken (draft : Draft) : Prop where
  speeds : draft.speeds.Unbroken
  zones : draft.zones.Unbroken
  tools : ∀ t ∈ draft.tools, Text.Unbroken t.text
  targets : ∀ e ∈ draft.targets, e.Unbroken TargetDeclaration.text
  customDeclarations : ∀ s ∈ draft.customDeclarations, Text.Unbroken s
  body : ∀ e ∈ draft.body, e.Unbroken Statement.text

theorem unbroken_empty : empty.Unbroken where
  speeds := List.forall_mem_nil _
  zones := List.forall_mem_nil _
  tools := List.forall_mem_nil _
  targets := List.forall_mem_nil _
  customDeclarations := List.forall_mem_nil _
  body := List.forall_mem_nil _

namespace Unbroken

variable {draft : Draft}

/-- An unbroken entry keeps a module unbroken. -/
theorem write (h : draft.Unbroken) {e : Entry Statement} (he : e.Unbroken Statement.text) :
    (draft.write e).Unbroken :=
  { h with body := Program.forall_mem_concat h.body he }

theorem speedName (h : draft.Unbroken) (d : Decimals) (speed : Float) :
    Text.Unbroken (draft.speedName d speed).1 ∧ (draft.speedName d speed).2.Unbroken := by
  have hstem : Text.Unbroken "vel" := by decide
  obtain ⟨hname, hspeeds⟩ := h.speeds.nameFor hstem (unbroken_speedData d speed)
  exact ⟨hname, { h with speeds := hspeeds }⟩

/-- Zones have unbroken names, and so has no zone. -/
theorem zoneName (h : draft.Unbroken) (d : Decimals) (radius : Float) :
    Text.Unbroken (draft.zoneName d radius).1 ∧ (draft.zoneName d radius).2.Unbroken := by
  have hstem : Text.Unbroken "zone" := by decide
  have hfine : Text.Unbroken "fine" := by decide
  obtain ⟨hname, hzones⟩ := h.zones.nameFor hstem (unbroken_zoneData d radius)
  rw [Draft.zoneName]
  split
  · exact ⟨hfine, h⟩
  · exact ⟨hname, { h with zones := hzones }⟩

/-- A target stands on one line, whether in place or declared under a name. -/
theorem placeTarget (h : draft.Unbroken) (inlineTargets : Bool) {action : Action Float}
    (haction : action.command.Unbroken) {target : Target} (htarget : Text.Unbroken target.text) :
    Text.Unbroken ((draft.placeTarget inlineTargets action target).1.text Target.text) ∧
      (draft.placeTarget inlineTargets action target).2.Unbroken := by
  cases inlineTargets with
  | true => exact ⟨htarget, { h with }⟩
  | false =>
    have htype : Text.Unbroken target.type := by
      cases target <;>
        · dsimp only [Target.type]
          decide
    have hdeclaration : Text.Unbroken (TargetDeclaration.text ⟨draft.motions, target⟩) := by
      dsimp only [TargetDeclaration.text]
      simp only [unbroken_append, Program.unbroken_targetName, htype, htarget, and_true]
      decide
    exact ⟨Program.unbroken_targetName _, { h with
      targets := Program.forall_mem_concat h.targets
        ⟨haction, List.forall_mem_singleton.mpr hdeclaration⟩ }⟩

/-- A motion is written on one line if its target is. -/
theorem motion (h : draft.Unbroken) (d : Decimals) (inlineTargets : Bool) {v : Visit Float}
    (haction : v.action.command.Unbroken) (kind : MoveKind) {target? : Option Target}
    (htarget : ∀ target, target? = some target → Text.Unbroken target.text) :
    (draft.motion d inlineTargets v kind target?).Unbroken := by
  cases target? with
  | none =>
    have hmessage : Text.Unbroken "no target available for motion" := by decide
    exact h.write ⟨haction, hmessage⟩
  | some target =>
    -- names are given one after the other, each to the module that the last one left
    obtain ⟨hspeed, h⟩ := h.speedName d v.state.settings.speed
    obtain ⟨hzone, h⟩ := h.zoneName d v.state.settings.precision
    obtain ⟨hplace, h⟩ := h.placeTarget inlineTargets haction (htarget target rfl)
    refine h.write ⟨haction, List.forall_mem_singleton.mpr ?_⟩
    exact unbroken_move hplace hspeed hzone (unbroken_toolName _)

end Unbroken

/-- **A step writes unbroken lines for an action with unbroken texts.** -/
theorem unbroken_step {draft : Draft} (h : draft.Unbroken) (d : Decimals) (inlineTargets : Bool)
    {v : Visit Float} (haction : v.action.command.Unbroken) :
    (step d inlineTargets draft v).Unbroken := by
  generalize hafter : step d inlineTargets draft v = after
  have hwrites := hafter ▸ draft.step_writes d inlineTargets v
  cases hwrites with
  | nothing => exact h
  | entry e _ hline => exact h.write (hline haction)
  | motion kind target? htarget =>
    refine h.motion d inlineTargets haction kind fun target ht => ?_
    rcases htarget with rfl | rfl
    · exact unbroken_poseTarget? ht
    · exact unbroken_jointTarget? ht
  | tool t =>
    exact { h with tools := Program.forall_mem_concat h.tools (unbroken_toolDeclaration d t) }
  | custom text _ hcustom =>
    have htext : Text.Unbroken text := by
      rw [customDeclaration] at hcustom
      split at hcustom
      · rename_i hc
        obtain rfl := List.singleton_inj.mp hcustom
        rw [hc] at haction
        exact haction _ List.mem_cons_self
      · cases hcustom
    exact { h with customDeclarations := Program.forall_mem_concat h.customDeclarations htext }

end Draft

/-- Modules of actions with unbroken texts are unbroken. -/
theorem unbroken_draft (d : Decimals) (inlineTargets : Bool) {visits : List (Visit Float)}
    (h : ∀ v ∈ visits, v.action.command.Unbroken) : (draft d inlineTargets visits).Unbroken :=
  Program.foldl_invariant Draft.Unbroken (·.action.command.Unbroken)
    (fun _ hdraft _ hv => Draft.unbroken_step hdraft d inlineTargets hv) Draft.unbroken_empty h

end Rapid

end RobotMotion
