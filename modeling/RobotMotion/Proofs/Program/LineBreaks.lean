import RobotMotion.Proofs.Fleet.Run
import RobotMotion.Proofs.Program.LineBreaks.GCode
import RobotMotion.Proofs.Program.LineBreaks.Krl
import RobotMotion.Proofs.Program.LineBreaks.Rapid
import RobotMotion.Proofs.Program.LineBreaks.UrScript
import RobotMotion.Proofs.Program.Rejections

/-!
# Line breaks in programs

Texts of users reach a program through statements, diagnostics and annotations. Every
other text in a program is unbroken, whatever the state of the device is, so a program
whose actions hold unbroken texts consists of unbroken lines (`Dialect.unbroken_parts`), and
its file has just these lines. A line break in a text of a user is passed on as it is:
quoting deals with double quotes and backslashes alone.
-/

namespace RobotMotion

open Program (Entry Look Part)
open Text (Unbroken unbroken_append)

/-- A call stands on one line where the texts of its action do. -/
theorem CallList.unbroken_body {visits : List (Visit Float)}
    (h : ∀ v ∈ visits, v.action.command.Unbroken) :
    ∀ e ∈ body visits, e.Unbroken Call.render := by
  intro e he
  obtain ⟨v, hv, rfl⟩ := List.mem_map.mp he
  rw [entry]
  split
  · exact ⟨h v hv, List.forall_mem_singleton.mpr (Command.unbroken_instruction (h v hv))⟩
  · exact ⟨h v hv, trivial⟩

namespace Program

/-- Whether a part of a program consists of unbroken lines. -/
def Part.Unbroken (part : Part) : Prop := ∀ line ∈ part.lines, Text.Unbroken line

/-- A part of fixed lines is unbroken if these are. -/
theorem Part.unbroken_fixed {look : Look} {lines : List String}
    (h : ∀ line ∈ lines, Text.Unbroken line) : (Part.fixed look lines).Unbroken := by
  rw [Part.Unbroken, Part.lines_fixed]
  exact h

/-- A section is unbroken if its entries are. -/
theorem Part.unbroken_of {σ : Type} {comment dialect : String} {mode : CommentMode} {indent : Nat}
    {render : σ → String} (hcomment : Text.Unbroken comment) (hdialect : Text.Unbroken dialect)
    {entries : List (Entry σ)} (h : ∀ e ∈ entries, e.Unbroken render) :
    (Part.of ⟨comment, dialect, mode, indent⟩ render entries).Unbroken := by
  rw [Part.Unbroken, Part.lines_of]
  exact Look.unbroken_lines hcomment hdialect h

/-- The empty line behind declarations. -/
theorem Part.unbroken_gap (look : Look) (lines : List String) :
    (Part.fixed look (if lines.isEmpty then [] else [""])).Unbroken := by
  refine Part.unbroken_fixed ?_
  split <;> decide

/-- How a look writes what is said about an action: a diagnostic is one line behind the
comment mark, and an annotation stands behind the first statement. -/
def Look.Remarks (look : Look) (comment : String) : Entry String → Prop
  | .diagnostic action what =>
    ∃ text, look.entryLines id (.diagnostic action what) = [look.indented (comment ++ text)]
  | .code action (first :: rest) =>
    ∃ note, (note = "" ∨ ∃ text, note = "  " ++ comment ++ text) ∧
      look.entryLines id (.code action (first :: rest)) =
        look.indented (first ++ note) :: rest.map look.indented
  | _ => True

/-- **Every look writes its remarks behind the comment mark.** -/
theorem Look.remarks (look : Look) (e : Entry String) : look.Remarks look.comment e := by
  cases e with
  | diagnostic action what => exact ⟨_, rfl⟩
  | code action statements =>
    cases statements with
    | nil => trivial
    | cons first rest =>
      exists look.annotation action
      refine ⟨?_, by rw [Look.entryLines, List.map_id]; rfl⟩
      unfold Look.annotation
      split
      · exact .inl rfl
      · exact .inr ⟨" " ++ action.command.description, String.append_assoc⟩
      · exact .inr ⟨" [" ++ Decimal.natural action.id ++ "]", by simp only [String.append_assoc]⟩
  | plain | blank => trivial

/-- A name between fixed texts. -/
theorem unbroken_titled {before name after : String} (hbefore : Text.Unbroken before)
    (hname : Text.Unbroken name) (hafter : Text.Unbroken after) :
    Text.Unbroken (before ++ name ++ after) :=
  unbroken_append.mpr ⟨unbroken_append.mpr ⟨hbefore, hname⟩, hafter⟩

end Program

namespace Rapid

theorem unbroken_indent {s : String} (h : Unbroken s) : Unbroken ("  " ++ s) :=
  unbroken_append.mpr ⟨by decide, h⟩

/-- The constants of a table, each declared on a line. -/
theorem unbroken_constants {kind : String} (hkind : Unbroken kind) {table : NameTable}
    (h : table.Unbroken) :
    ∀ line ∈ table.entries.map fun (name, value) =>
      "  " ++ (kind ++ name ++ " := " ++ value ++ ";"), Unbroken line := by
  intro line hline
  obtain ⟨⟨name, value⟩, he, rfl⟩ := List.mem_map.mp hline
  obtain ⟨hname, hvalue⟩ := h _ he
  have hassign : Unbroken " := " := by decide
  have hend : Unbroken ";" := by decide
  refine unbroken_indent ?_
  simp only [unbroken_append, hkind, hname, hvalue, hassign, hend, and_self]

end Rapid

section Parts

variable {time name : String} (htime : Unbroken time) (hname : Unbroken name)
  (options : ProgramOptions)

include htime hname

/-- The parts of a module are unbroken where its draft is. -/
theorem Rapid.unbroken_parts {draft : Draft} (h : draft.Unbroken) :
    ∀ part ∈ parts time name options draft, part.Unbroken := by
  have hmodule : Unbroken "MODULE " := by decide
  simp only [parts, List.forall_mem_cons]
  refine ⟨Part.unbroken_fixed (Program.unbroken_header htime (by decide) hname (by decide)),
    Part.unbroken_fixed ?_, Part.unbroken_fixed (unbroken_constants (by decide) h.speeds),
    Part.unbroken_fixed (unbroken_constants (by decide) h.zones), Part.unbroken_fixed ?_,
    Part.unbroken_of (by decide) (by decide) h.targets, Part.unbroken_fixed ?_,
    Part.unbroken_fixed (by decide), Part.unbroken_of (by decide) (by decide) h.body,
    Part.unbroken_fixed (by decide), List.forall_mem_nil _⟩
  · simp only [List.forall_mem_cons]
    exact ⟨by decide, unbroken_append.mpr ⟨hmodule, hname⟩, by decide, List.forall_mem_nil _⟩
  · intro line hline
    obtain ⟨t, ht, rfl⟩ := List.mem_map.mp hline
    exact unbroken_indent (h.tools t ht)
  · intro line hline
    obtain ⟨s, hs, rfl⟩ := List.mem_map.mp hline
    exact unbroken_indent (h.customDeclarations s hs)

/-- The parts of a KRL program are unbroken where its draft is. -/
theorem Krl.unbroken_parts {draft : Draft} (h : draft.Unbroken) :
    ∀ part ∈ parts time name options draft, part.Unbroken := by
  simp only [parts, List.forall_mem_cons]
  refine ⟨Part.unbroken_fixed (by decide),
    Part.unbroken_fixed (Program.unbroken_header htime (by decide) hname (by decide)),
    Part.unbroken_fixed ?_, Part.unbroken_of (by decide) (by decide) h.declarations,
    Part.unbroken_gap _ _, Part.unbroken_fixed (by decide),
    Part.unbroken_of (by decide) (by decide) h.body, Part.unbroken_fixed (by decide),
    List.forall_mem_nil _⟩
  simp only [List.forall_mem_cons]
  exact ⟨by decide, Program.unbroken_titled (by decide) hname (by decide), List.forall_mem_nil _⟩

/-- The parts of a URScript program are unbroken where its draft is. -/
theorem UrScript.unbroken_parts {draft : Draft} (h : draft.Unbroken) :
    ∀ part ∈ parts time name options draft, part.Unbroken := by
  simp only [parts, List.forall_mem_cons]
  refine ⟨Part.unbroken_fixed (Program.unbroken_header htime (by decide) hname (by decide)),
    Part.unbroken_fixed ?_, Part.unbroken_of (by decide) (by decide) h.declarations,
    Part.unbroken_gap _ _, Part.unbroken_of (by decide) (by decide) h.body,
    Part.unbroken_fixed (by decide), List.forall_mem_nil _⟩
  simp only [List.forall_mem_cons]
  exact ⟨by decide, Program.unbroken_titled (by decide) hname (by decide), List.forall_mem_nil _⟩

/-- The parts of a G-code program are unbroken where its draft is. -/
theorem GCode.unbroken_parts {draft : Draft} (h : draft.Unbroken) :
    ∀ part ∈ parts time name options draft, part.Unbroken := by
  simp only [parts, List.forall_mem_cons]
  exact ⟨Part.unbroken_fixed (Program.unbroken_header htime (by decide) hname (by decide)),
    Part.unbroken_fixed (by decide), Part.unbroken_of (by decide) (by decide) h.preamble,
    Part.unbroken_fixed (by decide), Part.unbroken_of (by decide) (by decide) h.body,
    List.forall_mem_nil _⟩

/-- The parts of a list of calls are unbroken where the calls are. -/
theorem CallList.unbroken_parts {entries : List (Program.Entry Call)}
    (h : ∀ e ∈ entries, e.Unbroken Call.render) :
    ∀ part ∈ parts time name options entries, part.Unbroken := by
  simp only [parts, List.forall_mem_cons]
  exact ⟨Part.unbroken_fixed (Program.unbroken_header htime (by decide) hname (by decide)),
    Part.unbroken_fixed (by decide), Part.unbroken_of (by decide) (by decide) h,
    List.forall_mem_nil _⟩

end Parts

namespace Dialect

/-- **The parts of a program are unbroken if the texts in its actions are.** -/
theorem unbroken_parts (dialect : Dialect) (d : Decimals) {time : String} (htime : Unbroken time)
    (name : String) (options : ProgramOptions) {cursor : Cursor Float}
    (h : ∀ v ∈ cursor.visits options.blockOnly, v.action.command.Unbroken) :
    ∀ part ∈ dialect.parts d time name options cursor, part.Unbroken := by
  have hname := Program.unbroken_safeName name
  cases dialect with
  | rapid => exact Rapid.unbroken_parts htime hname options (Rapid.unbroken_draft d _ h)
  | krl => exact Krl.unbroken_parts htime hname options (Krl.unbroken_draft d _ _ h)
  | urscript => exact UrScript.unbroken_parts htime hname options (UrScript.unbroken_draft d _ h)
  | gcode => exact GCode.unbroken_parts htime hname options (GCode.unbroken_draft d _ h)
  | calls => exact CallList.unbroken_parts htime hname options (CallList.unbroken_body h)

/-- No program is without lines: there is the header at least. -/
theorem lines_program_ne_nil (dialect : Dialect) (d : Decimals) (time name : String)
    (options : ProgramOptions) (cursor : Cursor Float) :
    (dialect.program d time name options cursor).lines ≠ [] := by
  cases dialect <;> exact List.append_ne_nil_of_left_ne_nil (by simp [Program.header]) _

/-- **Unbroken texts stay on their lines.** Where the texts in the actions that are replayed
are unbroken, the file of a program has the lines of the program and no others. A
diagnostic is one line behind the comment mark, and an annotation stands behind the
comment mark on the first line of the statements it belongs to. -/
theorem physical_lines (dialect : Dialect) (d : Decimals) {time : String} (htime : Unbroken time)
    (name : String) (options : ProgramOptions) {cursor : Cursor Float}
    (h : ∀ v ∈ cursor.visits options.blockOnly, v.action.command.Unbroken) :
    (dialect.program d time name options cursor).text.toList.splitOn '\n' =
        (dialect.program d time name options cursor).lines.map String.toList ++ [[]] ∧
      (∀ line ∈ (dialect.program d time name options cursor).lines, Unbroken line) ∧
      ∀ part ∈ dialect.parts d time name options cursor, ∀ e ∈ part.entries,
        part.look.Remarks dialect.comment e := by
  have hparts := dialect.unbroken_parts d htime name options h
  -- the lines of a program are those of its parts, and parts are unbroken
  have hlines : ∀ line ∈ (dialect.program d time name options cursor).lines, Unbroken line := by
    intro line hline
    rw [lines_program] at hline
    obtain ⟨part, hpart, hline⟩ := List.mem_flatMap.mp hline
    exact hparts part hpart line hline
  refine ⟨Program.splitOn_text (dialect.lines_program_ne_nil d time name options cursor) hlines,
    hlines, fun part hpart e he => ?_⟩
  rw [← comment_of_mem_parts hpart]
  exact part.look.remarks e

end Dialect

namespace Fleet

/-- Requests whose actions come with texts of users: an annotation, a message, a pin that no
dialect has, and an action that is rejected. -/
def wordy : List (Operation Float) :=
  [.add "arm" false none [], .issue 0 ⟨1, .translation ⟨10, 0, 0⟩ true⟩,
    .start 0 .origin .standard, .issue 0 ⟨2, .comment "pick \"A\""⟩,
    .issue 0 ⟨3, .message "done"⟩, .issue 0 ⟨4, .writeDigital "no pin" true false⟩]

/-- A program with annotations and diagnostics, in every dialect. -/
theorem physical_lines_wordy :
    ∃ c, (empty.run wordy).cursor? 0 = some c ∧
      (∀ v ∈ c.visits false, v.action.command.Unbroken) ∧
      ∀ dialect : Dialect,
        let p := dialect.program .standard "2024-01-01 00:00:00" "demo"
          ⟨false, true, .actionString⟩ c
        p.text.toList.splitOn '\n' = p.lines.map String.toList ++ [[]] := by
  have hcomputed : ((empty.run wordy).cursor? 0).map (fun c =>
      decide (∀ v ∈ c.visits false, v.action.command.Unbroken)) = some true := by decide +kernel
  obtain ⟨c, hc, hread⟩ := Option.map_eq_some_iff.mp hcomputed
  have hunbroken := of_decide_eq_true hread
  have htime : Unbroken "2024-01-01 00:00:00" := by decide
  exact ⟨c, hc, hunbroken, fun dialect =>
    (dialect.physical_lines .standard htime "demo" ⟨false, true, .actionString⟩ hunbroken).1⟩

/-- Requests with a message of two lines. -/
def twoLines : List (Operation Float) :=
  [.add "arm" false none [], .start 0 .origin .standard, .issue 0 ⟨1, .message "pick\nHALT"⟩]

/-- **A message of two lines breaks out of its diagnostic**: what follows the line break is
read as an instruction. -/
theorem not_physical_lines_twoLines :
    ∃ c, (empty.run twoLines).cursor? 0 = some c ∧
      (∀ v ∈ c.visits false, ∀ text isDeclaration,
        v.action.command ≠ .customCode text isDeclaration) ∧
      let p := Dialect.program .krl .standard "2024-01-01 00:00:00" "demo" .standard c
      (∃ line ∈ p.lines, ¬ Unbroken line) ∧
        p.text.toList.splitOn '\n' ≠ p.lines.map String.toList ++ [[]] := by
  have hcomputed : ((empty.run twoLines).cursor? 0).map (fun c =>
      let p := Dialect.program .krl .standard "2024-01-01 00:00:00" "demo" .standard c
      ((c.visits false).map (·.action.command),
        decide (∃ line ∈ p.lines, '\n' ∈ line.toList))) =
      some ([.message "pick\nHALT"], true) := by decide +kernel
  obtain ⟨c, hc, hread⟩ := Option.map_eq_some_iff.mp hcomputed
  obtain ⟨hcommands, hbroken⟩ := Prod.mk.inj hread
  obtain ⟨line, hline, hbreak⟩ := of_decide_eq_true hbroken
  refine ⟨c, hc, fun v hv text isDeclaration hcustom => ?_, ⟨line, hline, fun hunbroken => ?_⟩,
    Program.splitOn_text_ne hline hbreak⟩
  -- the only command is the message, so there is no custom code
  · have hmem : v.action.command ∈ (c.visits false).map (·.action.command) :=
      List.mem_map_of_mem hv
    rw [hcommands, hcustom] at hmem
    cases List.mem_singleton.mp hmem
  · exact absurd (hunbroken _ hbreak) (by decide)

end Fleet

end RobotMotion
