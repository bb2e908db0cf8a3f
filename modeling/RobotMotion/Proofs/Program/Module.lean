import RobotMotion.Proofs.Device.Equipment
import RobotMotion.Proofs.Program.Lines
import RobotMotion.Proofs.Program.Rejections
import Mathlib.Data.List.Nodup

/-!
# What goes into a RAPID module

`Draft.Writes` says once what a step writes for a visit: nothing, an entry of the main
procedure, a motion, the declaration of a tool, or a custom declaration. What a module
holds of each kind follows by going through the visits: its tools are those that the
visits define, its custom declarations those of the custom code, and each of its motions
names the tool that is attached when the motion ends.
-/

namespace RobotMotion.Rapid

open Program (Entry)
open Text (unbroken_append)

/-- The custom declaration that a visit adds to a module. -/
def customDeclaration (v : Visit Float) : List String :=
  match v.applied, v.action.command with
  | true, .customCode text true => [text]
  | _, _ => []

/-- The motions of an entry, each with its action. -/
def entryMoves : Entry Statement → List (Action Float × Move)
  | .code action statements => statements.filterMap fun
    | .move m => some (action, m)
    | _ => none
  | _ => []

namespace Draft

/-- The motions of a module, each with its action. -/
def moves (draft : Draft) : List (Action Float × Move) := draft.body.flatMap entryMoves

/-- What a step may write for a visit. -/
inductive Writes (d : Decimals) (inlineTargets : Bool) (draft : Draft) (v : Visit Float) :
    Draft → Prop where
  | nothing (htool : v.definedTool = []) (hcustom : customDeclaration v = []) :
    Writes d inlineTargets draft v draft
  | entry (e : Entry Statement) (he : entryMoves e = [])
      (hline : v.action.command.Unbroken → e.Unbroken Statement.text) (htool : v.definedTool = [])
      (hcustom : customDeclaration v = []) :
    Writes d inlineTargets draft v (draft.write e)
  | motion (kind : MoveKind) (target? : Option Target)
      (htarget : target? = poseTarget? d v.state ∨ target? = jointTarget? d v.state)
      (happlied : v.applied = true) (htool : v.definedTool = [])
      (hcustom : customDeclaration v = []) :
    Writes d inlineTargets draft v (draft.motion d inlineTargets v kind target?)
  | tool (t : Tool Float) (htool : v.definedTool = [t]) (hcustom : customDeclaration v = []) :
    Writes d inlineTargets draft v { draft with tools := draft.tools ++ [toolDeclaration d t] }
  | custom (text : String) (htool : v.definedTool = []) (hcustom : customDeclaration v = [text]) :
    Writes d inlineTargets draft v
      { draft with customDeclarations := draft.customDeclarations ++ [text] }

/-- A limit of the acceleration is written with a number, or there is none. -/
theorem unbroken_accelerationLimit (d : Decimals) (acceleration : Float) :
    Text.Unbroken (accelerationLimit d acceleration).text := by
  rw [accelerationLimit]
  split
  · dsimp only [Statement.text]
    simp only [unbroken_append, Text.unbroken_fixed, and_true]
    decide
  · decide

/-- A literal is unbroken where its text is: doubled quotes are quotes. -/
theorem unbroken_stringLiteral {s : String} (h : Text.Unbroken s) :
    Text.Unbroken (stringLiteral s) := by
  have hdoubled : ∀ c ∈ doubleQuotes s.toList, Text.isBreak c = false := by
    intro c hc
    obtain ⟨b, hb, hcb⟩ := List.mem_flatMap.mp hc
    split at hcb
    · rcases List.mem_pair.mp hcb with rfl | rfl <;> decide
    · rw [List.mem_singleton.mp hcb]
      exact h b hb
  -- cutting the text off leaves characters that were there before
  have hcut : Text.Unbroken (String.ofList ((doubleQuotes s.toList).take maxStringLength)) :=
    (Text.unbroken_ofList _).mpr fun c hc => hdoubled c (List.mem_of_mem_take hc)
  have hquote : Text.Unbroken "\"" := by decide
  rw [stringLiteral]
  simp only [unbroken_append]
  exact ⟨⟨hquote, hcut⟩, hquote⟩

/-- A message is shown as a literal. -/
theorem unbroken_display {s : String} (h : Text.Unbroken s) :
    Text.Unbroken (Statement.display (stringLiteral s)).text := by
  dsimp only [Statement.text]
  simp only [unbroken_append, unbroken_stringLiteral h, and_true]
  decide

/-- A comment reaches RAPID as it is. -/
theorem unbroken_comment {s : String} (h : Text.Unbroken s) :
    Text.Unbroken (Statement.comment s).text := by
  dsimp only [Statement.text]
  simp only [unbroken_append, h, and_true]
  decide

theorem unbroken_wait (millis : Nat) :
    Text.Unbroken (Statement.wait (Program.secondsText millis)).text := by
  dsimp only [Statement.text]
  simp only [unbroken_append, Program.unbroken_secondsText, and_true]
  decide

/-- A signal is set under its own name. -/
theorem unbroken_setDigital {signal : String} (h : Text.Unbroken signal) (on : Bool) :
    Text.Unbroken (Statement.setDigital signal on).text := by
  dsimp only [Statement.text]
  cases on <;>
    · simp only [unbroken_append, h, and_true, Bool.false_eq_true, if_false, if_true]
      decide

theorem unbroken_setAnalog {signal value : String} (h : Text.Unbroken signal)
    (hvalue : Text.Unbroken value) : Text.Unbroken (Statement.setAnalog signal value).text := by
  dsimp only [Statement.text]
  simp only [unbroken_append, h, hvalue, and_true]
  decide

/-- The fault of a bad signal name quotes the name. -/
theorem unbroken_badSignal {signal : String} (h : Text.Unbroken signal) :
    Text.Unbroken ("\"" ++ signal ++ "\" is not a valid RAPID signal name") := by
  simp only [unbroken_append, h, and_true]
  decide

/-- An applied definition defines its tool, and no other command does. -/
theorem definedTool_of_applied {v : Visit Float} (h : v.applied = true) :
    v.definedTool = match v.action.command with
      | .defineTool t => [t]
      | _ => [] := by
  rw [Visit.definedTool, h]
  cases v.action.command <;> rfl

/-- Applied custom code adds its text if it is a declaration. -/
theorem customDeclaration_of_applied {v : Visit Float} (h : v.applied = true) :
    customDeclaration v = match v.action.command with
      | .customCode text true => [text]
      | _ => [] := by
  rw [customDeclaration, h]
  split <;> simp_all

/-- **A step writes what `Writes` says.** -/
theorem step_writes (draft : Draft) (d : Decimals) (inlineTargets : Bool) (v : Visit Float) :
    Writes d inlineTargets draft v (step d inlineTargets draft v) := by
  cases ha : v.applied with
  | false =>
    have htool : v.definedTool = [] := by rw [Visit.definedTool, ha]
    have hcustom : customDeclaration v = [] := by rw [customDeclaration, ha]
    simp only [step, ha, Bool.not_false, if_true]
    exact .entry _ rfl (fun h => ⟨h, trivial⟩) htool hcustom
  | true =>
    have htool := definedTool_of_applied ha
    have hcustom := customDeclaration_of_applied ha
    have hcode (s : Statement) (hs : v.action.command.Unbroken → Text.Unbroken s.text)
        (h : v.action.command.Unbroken) :
        (Entry.code v.action [s]).Unbroken Statement.text :=
      ⟨h, List.forall_mem_singleton.mpr (hs h)⟩
    have hdiagnostic (what : Program.Diagnostic)
        (hwhat : v.action.command.Unbroken → what.Unbroken) (h : v.action.command.Unbroken) :
        (Entry.diagnostic v.action what).Unbroken Statement.text := ⟨h, hwhat h⟩
    simp only [step, ha, Bool.not_true, Bool.false_eq_true, if_false]
    -- what a visit may write depends on its command; texts come in with code alone
    generalize hc : v.action.command = command at htool hcustom hcode hdiagnostic
    cases command <;> dsimp only at htool hcustom ⊢
    case setting which value relative =>
      cases which with
      | acceleration =>
        exact .entry _ rfl (hc ▸ hcode _ fun _ => unbroken_accelerationLimit d _) htool hcustom
      | extrusionRate => exact .entry _ rfl (hc ▸ hdiagnostic _ fun _ => trivial) htool hcustom
      | speed | precision => exact .nothing htool hcustom
    case translation | rotation | transformation =>
      exact .motion _ _ (.inl rfl) ha htool hcustom
    case axes => exact .motion _ _ (.inr rfl) ha htool hcustom
    case popSettings =>
      split
      · split
        · exact .entry _ rfl (hc ▸ hcode _ fun _ => unbroken_accelerationLimit d _) htool hcustom
        · exact .nothing htool hcustom
      · exact .nothing htool hcustom
    case writeDigital pin on toolPin =>
      have hpin (h : (Command.writeDigital pin on toolPin : Command Float).Unbroken) :
          Text.Unbroken pin := h pin List.mem_cons_self
      split
      · exact .entry _ rfl (hc ▸ hcode _ fun h => unbroken_setDigital (hpin h) on) htool hcustom
      · exact .entry _ rfl (hc ▸ hdiagnostic _ fun h => unbroken_badSignal (hpin h)) htool hcustom
    case writeAnalog pin value toolPin =>
      have hpin (h : (Command.writeAnalog pin value toolPin).Unbroken) :
          Text.Unbroken pin := h pin List.mem_cons_self
      split
      · exact .entry _ rfl
          (hc ▸ hcode _ fun h => unbroken_setAnalog (hpin h) (Text.unbroken_fixed _ _))
          htool hcustom
      · exact .entry _ rfl (hc ▸ hdiagnostic _ fun h => unbroken_badSignal (hpin h)) htool hcustom
    case defineTool t => exact .tool t htool hcustom
    case customCode text isDeclaration =>
      cases isDeclaration with
      | true => exact .custom text htool hcustom
      | false =>
        exact .entry _ rfl (hc ▸ hcode _ fun h => h text List.mem_cons_self) htool hcustom
    case wait millis =>
      exact .entry _ rfl (hc ▸ hcode _ fun _ => unbroken_wait millis) htool hcustom
    case message text =>
      exact .entry _ rfl (hc ▸ hcode _ fun h => unbroken_display (h text List.mem_cons_self)) htool
        hcustom
    case comment text =>
      exact .entry _ rfl (hc ▸ hcode _ fun h => unbroken_comment (h text List.mem_cons_self)) htool
        hcustom
    case temperature | extrusion | initialization =>
      exact .entry _ rfl (hc ▸ hdiagnostic _ fun _ => trivial) htool hcustom
    case motionMode | referenceFrame | pushSettings | externalAxis | attachTool | detachTool =>
      exact .nothing htool hcustom

/-- A motion is written as one entry, which names the attached tool if it is a motion at
all; besides, it gives names to a speed, a zone and a target. -/
theorem motion_eq (draft : Draft) (d : Decimals) (inlineTargets : Bool) (v : Visit Float)
    (kind : MoveKind) (target? : Option Target) :
    ∃ speeds zones targets motions entry,
      draft.motion d inlineTargets v kind target? =
          { draft with speeds, zones, targets, motions, body := draft.body ++ [entry] } ∧
        ∀ m ∈ entryMoves entry, m.1 = v.action ∧ m.2.tool = toolName v.state := by
  cases target? with
  | none =>
    refine ⟨draft.speeds, draft.zones, draft.targets, draft.motions, _, rfl, ?_⟩
    exact fun m hm => absurd hm List.not_mem_nil
  | some target =>
    -- naming and placing are steps of their own, each of which changes one table
    have hzone (draft : Draft) (radius : Float) :
        ∃ zones, (draft.zoneName d radius).2 = { draft with zones } := by
      rw [zoneName]
      split
      · exact ⟨draft.zones, rfl⟩
      · exact ⟨_, rfl⟩
    have hplace (draft : Draft) : ∃ targets motions,
        (draft.placeTarget inlineTargets v.action target).2 = { draft with targets, motions } := by
      cases inlineTargets <;> exact ⟨_, _, rfl⟩
    simp only [motion]
    obtain ⟨zones, hzones⟩ :=
      hzone (draft.speedName d v.state.settings.speed).2 v.state.settings.precision
    obtain ⟨targets, motions, htargets⟩ :=
      hplace ((draft.speedName d v.state.settings.speed).2.zoneName d v.state.settings.precision).2
    rw [htargets, hzones]
    refine ⟨_, zones, targets, motions, _, rfl, ?_⟩
    intro m hm
    obtain rfl := List.mem_singleton.mp hm
    exact ⟨rfl, rfl⟩

/-! ### What a step adds -/

namespace Writes

variable {d : Decimals} {inlineTargets : Bool} {draft after : Draft} {v : Visit Float}

/-- A step adds the tool that its visit defines, and no other. -/
theorem tools_eq (h : Writes d inlineTargets draft v after) :
    after.tools = draft.tools ++ v.definedTool.map (toolDeclaration d) := by
  cases h with
  | nothing htool | entry _ _ _ htool | custom _ htool =>
    rw [htool]
    exact (List.append_nil _).symm
  | motion kind target? _ _ htool =>
    obtain ⟨_, _, _, _, _, hmotion, -⟩ := draft.motion_eq d inlineTargets v kind target?
    rw [htool, hmotion]
    exact (List.append_nil _).symm
  | tool t htool =>
    rw [htool]
    rfl

/-- And it adds the custom declaration of its visit. -/
theorem customDeclarations_eq (h : Writes d inlineTargets draft v after) :
    after.customDeclarations = draft.customDeclarations ++ customDeclaration v := by
  cases h with
  | nothing _ hcustom | entry _ _ _ _ hcustom | tool _ _ hcustom =>
    rw [hcustom]
    exact (List.append_nil _).symm
  | motion kind target? _ _ _ hcustom =>
    obtain ⟨_, _, _, _, _, hmotion, -⟩ := draft.motion_eq d inlineTargets v kind target?
    rw [hcustom, hmotion]
    exact (List.append_nil _).symm
  | custom text _ hcustom => rw [hcustom]

/-- A motion that is written for a visit is that of its action and names the attached
tool. -/
theorem mem_moves (h : Writes d inlineTargets draft v after) {m : Action Float × Move}
    (hm : m ∈ after.moves) :
    m ∈ draft.moves ∨ v.applied = true ∧ m.1 = v.action ∧ m.2.tool = toolName v.state := by
  cases h with
  | nothing | tool | custom => exact .inl hm
  | entry e he =>
    rw [moves, write, List.flatMap_append, List.flatMap_singleton, he, List.append_nil] at hm
    exact .inl hm
  | motion kind target? _ happlied =>
    obtain ⟨_, _, _, _, _, hmotion, hentry⟩ := draft.motion_eq d inlineTargets v kind target?
    rw [moves, hmotion, List.flatMap_append, List.flatMap_singleton] at hm
    rcases List.mem_append.mp hm with hm | hm
    · exact .inl hm
    · exact .inr ⟨happlied, hentry m hm⟩

end Writes

/-- Every motion of a run of steps was there before or is that of a visit. -/
theorem mem_moves_foldl {d : Decimals} {inlineTargets : Bool} {visits : List (Visit Float)}
    {draft : Draft} {m : Action Float × Move}
    (h : m ∈ (visits.foldl (step d inlineTargets) draft).moves) :
    m ∈ draft.moves ∨
      ∃ v ∈ visits, v.applied = true ∧ m.1 = v.action ∧ m.2.tool = toolName v.state := by
  induction visits generalizing draft with
  | nil => exact .inl h
  | cons v rest ih =>
    rcases ih h with h | ⟨w, hw, hmove⟩
    · exact ((draft.step_writes d inlineTargets v).mem_moves h).imp_right fun hmove =>
        ⟨v, List.mem_cons_self, hmove⟩
    · exact .inr ⟨w, List.mem_cons_of_mem _ hw, hmove⟩

end Draft

/-! ### Whole modules -/

/-- Where keys are different, each is that of one member. -/
theorem filter_key_eq {β κ : Type} [DecidableEq β] [DecidableEq κ] {key : β → κ} {xs : List β}
    (hdistinct : (xs.map key).Nodup) {x : β} (h : x ∈ xs) : xs.filter (key · = key x) = [x] := by
  have hinj := List.inj_on_of_nodup_map hdistinct
  have hcount : xs.count x = 1 := List.count_eq_one_of_mem hdistinct.of_map h
  calc xs.filter (key · = key x) = xs.filter (· == x) := by
        refine List.filter_congr fun y hy => ?_
        rw [Bool.eq_iff_iff, decide_eq_true_iff, beq_iff_eq]
        exact ⟨hinj hy h, congrArg key⟩
    _ = [x] := by rw [List.filter_beq, hcount, List.replicate_one]

variable (d : Decimals) (inlineTargets : Bool) (visits : List (Visit Float))

/-- **The tools of a module are those that its visits define**, in their order. -/
theorem tools_draft :
    (draft d inlineTargets visits).tools =
      (visits.flatMap Visit.definedTool).map (toolDeclaration d) := by
  have hall : (draft d inlineTargets visits).tools =
      visits.flatMap fun v => v.definedTool.map (toolDeclaration d) :=
    Program.foldl_of_step (fun draft v => (Draft.step_writes draft d inlineTargets v).tools_eq)
      Draft.empty visits
  rw [hall, List.map_flatMap]

/-- **The custom declarations of a module are those of its custom code.** -/
theorem customDeclarations_draft :
    (draft d inlineTargets visits).customDeclarations = visits.flatMap customDeclaration :=
  Program.foldl_of_step
    (fun draft v => (Draft.step_writes draft d inlineTargets v).customDeclarations_eq)
    Draft.empty visits

/-- **A motion of a module is that of an applied action, and names the tool that is
attached then.** -/
theorem mem_moves_draft {m : Action Float × Move}
    (h : m ∈ (draft d inlineTargets visits).moves) :
    ∃ v ∈ visits, v.applied = true ∧ m.1 = v.action ∧ m.2.tool = toolName v.state :=
  (Draft.mem_moves_foldl h).resolve_left List.not_mem_nil

end RobotMotion.Rapid
