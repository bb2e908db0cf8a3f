import RobotMotion.Proofs.Cursor.Rehearsal
import RobotMotion.Proofs.Fleet.Run
import RobotMotion.Proofs.Program.Declarations

/-!
# The tools of a RAPID module

A motion of a module names the tool that is attached when it ends. The module declares
the tools that are defined on the way, and no others: a tool that was at hand at the
start is named all the same (`Fleet.not_toolsDeclared_preloaded`), and tools whose names
agree as identifiers are declared once each under the same one.

What a module declares under an identifier is counted over its lines
(`Rapid.filter_toolLines`). Where every tool at hand at the start is defined again on the
way, and the tools defined have different identifiers, just one line declares each tool
that is named, as it is (`Fleet.Reachable.toolsDeclared`).
-/

namespace RobotMotion

namespace Rapid

/-- Every motion of a module names `tool0`, or the attached tool under an identifier that just
one line of the module declares, with the data of this tool. Custom declarations stand in the
module as they were given. -/
def ToolsDeclared (d : Decimals) (time name : String) (options : ProgramOptions)
    (c : Cursor Float) : Prop :=
  let visits := c.visits options.blockOnly
  let lines := (Dialect.rapid.program d time name options c).lines
  ∀ m ∈ (draft d options.inlineTargets visits).moves,
    ∃ v ∈ visits, v.applied = true ∧ m.1 = v.action ∧
      match v.state.tool with
      | none => m.2.tool = "tool0"
      | some tool =>
        m.2.tool = Program.safeName tool.name ∧
          lines.filter (declares .tool m.2.tool) =
            ("  PERS tooldata " ++ m.2.tool ++ " := " ++ (toolDeclaration d tool).data ++ ";") ::
              (customLines visits).filter (declares .tool m.2.tool)

/-- **What a module declares under an identifier** are the tools defined on the way whose names
are made into it, one after the other. -/
theorem filter_toolLines (c : Cursor Float) (d : Decimals) (time title : String)
    (options : ProgramOptions) (name : String) :
    let visits := c.visits options.blockOnly
    let identifier := Program.safeName name
    (Dialect.rapid.program d time title options c).lines.filter (declares .tool identifier) =
      ((visits.flatMap Visit.definedTool).filter (Program.safeName ·.name = identifier)).map
          (fun t => "  PERS tooldata " ++ identifier ++ " := " ++
            (toolDeclaration d t).data ++ ";") ++
        (customLines visits).filter (declares .tool identifier) := by
  intro visits identifier
  have hchars (name : String) := (Program.isSafe_safeName name).nameChars
  have htable : ∀ e ∈ declarations d visits (draft d options.inlineTargets visits) .tool,
      ∀ c ∈ e.1.toList, Program.isNameChar c = true := by
    intro e he
    obtain ⟨t, -, rfl⟩ := List.mem_map.mp he
    exact hchars t.name
  have htools : (declarations d visits (draft d options.inlineTargets visits) .tool).filter
      (·.1 = identifier) = ((visits.flatMap Visit.definedTool).filter
        (Program.safeName ·.name = identifier)).map
          fun t => (Program.safeName t.name, (toolDeclaration d t).data) := by
    simp only [declarations, toolDeclaration, List.filter_map, Function.comp_def]
  rw [filter_declares c d time title options .tool (hchars name) htable, htools, List.map_map]
  refine congrArg (· ++ _) (List.map_congr_left fun t ht => ?_)
  -- the name of each tool that is left is the identifier
  have hname : Program.safeName t.name = identifier := of_decide_eq_true (List.mem_filter.mp ht).2
  simp only [Function.comp_apply, hname, declarationLine, DataKind.opening]

/-- Of tools with different identifiers only one has that of a tool. -/
theorem filter_identifier {tools : List (Tool Float)} {tool : Tool Float}
    (hdistinct : tools.Pairwise fun t u => Program.safeName t.name ≠ Program.safeName u.name)
    (h : tool ∈ tools) :
    tools.filter (Program.safeName ·.name = Program.safeName tool.name) = [tool] :=
  filter_key_eq (List.pairwise_map.mpr hdistinct) h

end Rapid

namespace Fleet

variable {f : Fleet Float} {i : Nat} {c : Cursor Float}

/-- A tool that is attached during a rehearsal was at hand at the start or is defined in
the rehearsal. -/
theorem Reachable.attached_tool (hf : f.Reachable) (hc : f.cursor? i = some c)
    {blockOnly : Bool} {v : Visit Float} (hv : v ∈ c.visits blockOnly) {tool : Tool Float}
    (ht : v.state.tool = some tool) :
    tool ∈ c.device.state.toolsAtHand ∨
      tool ∈ (c.visits blockOnly).flatMap Visit.definedTool := by
  rw [Cursor.visits_eq (hf.increasing hc)] at hv ⊢
  refine c.device.toolsAtHand_visits _ hv ?_
  rw [State.toolsAtHand, ht]
  exact List.mem_cons_self

/-- **Tool references and what is declared for them.** A module consists of the lines that are
listed. Each of its motions names `tool0`, or the tool that is attached there, and what the
module declares under the identifier are the tools that are defined on the way with such a
name, in order; custom declarations stand in the module as they were given.

So where every tool at hand at the start is among the tools defined by the actions that wait,
and the names of these are different identifiers, each motion names `tool0` or a tool that
just one line declares, with the data of the tool attached there. -/
theorem Reachable.toolsDeclared (hf : f.Reachable) (hc : f.cursor? i = some c) (d : Decimals)
    (time name : String) (options : ProgramOptions) :
    let visits := c.visits options.blockOnly
    let written := Rapid.draft d options.inlineTargets visits
    let defined := visits.flatMap Visit.definedTool
    let lines := (Dialect.rapid.program d time name options c).lines
    let look (indent : Nat) : Program.Look :=
      ⟨Rapid.comment, Rapid.dialect, options.comments, indent⟩
    lines =
      Program.header time Rapid.comment (Program.safeName name) Rapid.dialect ++
        ["", "MODULE " ++ Program.safeName name, ""] ++
        (written.speeds.entries.map fun e =>
          "  CONST speeddata " ++ e.1 ++ " := " ++ e.2 ++ ";") ++
        (written.zones.entries.map fun e =>
          "  CONST zonedata " ++ e.1 ++ " := " ++ e.2 ++ ";") ++
        (defined.map fun t =>
          "  PERS tooldata " ++ (Rapid.toolDeclaration d t).name ++ " := " ++
            (Rapid.toolDeclaration d t).data ++ ";") ++
        (look 2).lines Rapid.TargetDeclaration.text written.targets ++
        Rapid.customLines visits ++
        ["", "  PROC main()", "    ConfJ \\Off;", "    ConfL \\Off;", ""] ++
        (look 4).lines Rapid.Statement.text written.body ++
        ["  ENDPROC", "", "ENDMODULE"] ∧
    (∀ m ∈ written.moves, ∃ v ∈ visits, v.applied = true ∧ m.1 = v.action ∧
      match v.state.tool with
      | none => m.2.tool = "tool0"
      | some tool =>
        m.2.tool = Program.safeName tool.name ∧
          lines.filter (Rapid.declares .tool m.2.tool) =
            (defined.filter (Program.safeName ·.name = m.2.tool)).map
                (fun t => "  PERS tooldata " ++ m.2.tool ++ " := " ++
                  (Rapid.toolDeclaration d t).data ++ ";") ++
              (Rapid.customLines visits).filter (Rapid.declares .tool m.2.tool)) ∧
    ((∀ tool ∈ c.device.state.toolsAtHand, tool ∈ defined) →
      defined.Pairwise (fun t u => Program.safeName t.name ≠ Program.safeName u.name) →
      Rapid.ToolsDeclared d time name options c) := by
  intro visits written defined lines look
  have hnames : ∀ m ∈ written.moves, ∃ v ∈ visits, v.applied = true ∧ m.1 = v.action ∧
      match v.state.tool with
      | none => m.2.tool = "tool0"
      | some tool =>
        m.2.tool = Program.safeName tool.name ∧
          lines.filter (Rapid.declares .tool m.2.tool) =
            (defined.filter (Program.safeName ·.name = m.2.tool)).map
                (fun t => "  PERS tooldata " ++ m.2.tool ++ " := " ++
                  (Rapid.toolDeclaration d t).data ++ ";") ++
              (Rapid.customLines visits).filter (Rapid.declares .tool m.2.tool) := by
    intro m hm
    obtain ⟨v, hv, happlied, haction, htool⟩ :=
      Rapid.mem_moves_draft d options.inlineTargets visits hm
    refine ⟨v, hv, happlied, haction, ?_⟩
    rw [Rapid.toolName] at htool
    cases ht : v.state.tool with
    | none => rwa [ht] at htool
    | some tool =>
      rw [ht] at htool
      refine ⟨htool, ?_⟩
      rw [htool]
      exact Rapid.filter_toolLines c d time name options tool.name
  refine ⟨Rapid.lines_module c d time name options, hnames, fun hstart hdistinct m hm => ?_⟩
  obtain ⟨v, hv, happlied, haction, htool⟩ := hnames m hm
  refine ⟨v, hv, happlied, haction, ?_⟩
  cases ht : v.state.tool with
  | none => rwa [ht] at htool
  | some tool =>
    rw [ht] at htool
    obtain ⟨hname, hdeclared⟩ := htool
    -- the attached tool is defined on the way, and no other tool has its identifier
    have hdefined : tool ∈ defined := (hf.attached_tool hc hv ht).elim (hstart tool) id
    rw [hname, Rapid.filter_identifier hdistinct hdefined, ← hname] at hdeclared
    exact ⟨hname, hdeclared⟩

/-- The tool of the following runs. -/
def probe : Tool Float := ⟨"probe", ⟨0, 0, 100⟩, .identity, 1.5, ⟨0, 0, 50⟩⟩

/-- Requests that define a tool, attach it, and move. -/
def definedOnTheWay : List (Operation Float) :=
  [.add "arm" false none [], .start 0 .origin .standard, .issue 0 ⟨1, .defineTool probe⟩,
    .issue 0 ⟨2, .attachTool "probe"⟩, .issue 0 ⟨3, .translation ⟨10, 0, 0⟩ true⟩]

/-- No tool is at hand at the start, and the only one that is defined is declared. -/
theorem toolsDeclared_definedOnTheWay :
    ∃ c, (empty.run definedOnTheWay).cursor? 0 = some c ∧
      (∀ tool ∈ c.device.state.toolsAtHand,
        tool ∈ (c.visits false).flatMap Visit.definedTool) ∧
      ((c.visits false).flatMap Visit.definedTool).Pairwise
        (fun t u => Program.safeName t.name ≠ Program.safeName u.name) ∧
      Rapid.ToolsDeclared .standard "" "job" .standard c := by
  have hcomputed : ((empty.run definedOnTheWay).cursor? 0).map (fun c =>
      (c.device.state.toolsAtHand, (c.visits false).flatMap Visit.definedTool)) =
      some ([], [probe]) := by decide +kernel
  obtain ⟨c, hc, hread⟩ := Option.map_eq_some_iff.mp hcomputed
  obtain ⟨hstart, hdefined⟩ := Prod.mk.inj hread
  have hnone : ∀ tool ∈ c.device.state.toolsAtHand,
      tool ∈ (c.visits false).flatMap Visit.definedTool := by
    rw [hstart]
    exact fun tool ht => absurd ht List.not_mem_nil
  have hdistinct : ((c.visits false).flatMap Visit.definedTool).Pairwise
      (fun t u => Program.safeName t.name ≠ Program.safeName u.name) := by
    rw [hdefined]
    exact List.pairwise_singleton _ _
  obtain ⟨-, -, hdeclared⟩ :=
    Reachable.toolsDeclared ⟨definedOnTheWay, rfl⟩ hc .standard "" "job" .standard
  exact ⟨c, hc, hnone, hdistinct, hdeclared hnone hdistinct⟩

/-- Requests that attach a tool which the cursor knows from the start, and move. -/
def preloaded : List (Operation Float) :=
  [.add "arm" false none [probe], .start 0 .origin .standard,
    .issue 0 ⟨1, .attachTool "probe"⟩, .issue 0 ⟨2, .translation ⟨10, 0, 0⟩ true⟩]

/-- **A tool known from the start is named and not declared.** -/
theorem not_toolsDeclared_preloaded :
    ∃ c, (empty.run preloaded).cursor? 0 = some c ∧
      ((Dialect.rapid.program .standard "" "job" .standard c).lines.filter fun line =>
        line.startsWith "    Move" || line.startsWith "  PERS tooldata") =
          ["    MoveL [[10.000,0.000,100.000],[1.000000,0.000000,0.000000,0.000000],[0,0,0,0]," ++
            "[9E9,9E9,9E9,9E9,9E9,9E9]], vel0, zone0, probe\\WObj:=WObj0;"] ∧
      ¬ Rapid.ToolsDeclared .standard "" "job" .standard c := by
  have hcomputed : ((empty.run preloaded).cursor? 0).map (fun c =>
      ((Dialect.rapid.program .standard "" "job" .standard c).lines.filter (fun line =>
          line.startsWith "    Move" || line.startsWith "  PERS tooldata"),
        (Rapid.draft .standard true (c.visits false)).moves.map (·.2.tool),
        (c.visits false).flatMap Visit.definedTool,
        (c.visits false).flatMap Rapid.customDeclaration)) =
      some (["    MoveL [[10.000,0.000,100.000],[1.000000,0.000000,0.000000,0.000000],[0,0,0,0]," ++
        "[9E9,9E9,9E9,9E9,9E9,9E9]], vel0, zone0, probe\\WObj:=WObj0;"], ["probe"], [], []) := by
    decide +kernel
  obtain ⟨c, hc, hread⟩ := Option.map_eq_some_iff.mp hcomputed
  simp only [Prod.mk.injEq] at hread
  obtain ⟨hlines, hmoves, hdefined, hcustom⟩ := hread
  have hnone : (Dialect.rapid.program .standard "" "job" .standard c).lines.filter
      (Rapid.declares .tool "probe") = [] := by
    have hidentifier : Program.safeName "probe" = "probe" := by decide +kernel
    have htools := Rapid.filter_toolLines c .standard "" "job" .standard "probe"
    simp only [hidentifier, Rapid.customLines] at htools
    rw [htools, show c.visits ProgramOptions.standard.blockOnly = c.visits false from rfl,
      hdefined, hcustom]
    rfl
  refine ⟨c, hc, hlines, fun hdeclared => ?_⟩
  obtain ⟨m, hm, hname⟩ : ∃ m ∈ (Rapid.draft .standard true (c.visits false)).moves,
      m.2.tool = "probe" := by
    refine List.mem_map.mp ?_
    rw [hmoves]
    exact List.mem_singleton_self _
  obtain ⟨v, -, -, -, htool⟩ := hdeclared m hm
  cases ht : v.state.tool with
  | none =>
    rw [ht] at htool
    exact absurd (hname.symm.trans htool) (by decide)
  | some tool =>
    -- no line declares the identifier, so not even the first one is there
    rw [ht, hname, hnone] at htool
    exact absurd htool.2.symm (List.cons_ne_nil _ _)

end Fleet

end RobotMotion
