import RobotMotion.Proofs.Fleet.Run
import RobotMotion.Proofs.Program.Steps.UrScript
import RobotMotion.Proofs.Text.Quoting

/-!
# Quoted texts in programs and instructions

A message of a URScript program and a text in an instruction are quoted. Whatever they hold,
and whatever follows in the program or in the call, they are read back from where they stand,
and reading goes on behind the quote that closes them (`quoted_texts_read_back`).
-/

namespace RobotMotion

open Program (Look)
open Text (quoted Literal readLiteral?)

/-! ### Parts of a text -/

namespace Text

/-- What is strung together contains each of its parts. -/
theorem infix_intercalate {α : Type} (separator : List α) {part : List α} {parts : List (List α)}
    (h : part ∈ parts) : part <:+: separator.intercalate parts := by
  induction parts with
  | nil => cases h
  | cons first rest ih =>
    cases rest with
    | nil =>
      obtain rfl := List.mem_singleton.mp h
      simp
    | cons second more =>
      rw [List.intercalate_cons_cons]
      rcases List.mem_cons.mp h with rfl | h
      · rw [List.append_assoc]
        exact (List.prefix_append _ _).isInfix
      · exact (ih h).trans (List.suffix_append _ _).isInfix

theorem infix_toList_intercalate (separator : String) {part : String} {parts : List String}
    (h : part ∈ parts) : part.toList <:+: (String.intercalate separator parts).toList := by
  rw [String.toList_intercalate]
  exact infix_intercalate _ (List.mem_map_of_mem h)

end Text

theorem Program.infix_text {p : Program} {line : String} (h : line ∈ p.lines) :
    line.toList <:+: p.text.toList := by
  rw [text, String.toList_append]
  exact (Text.infix_toList_intercalate "\n" h).trans (List.prefix_append _ _).isInfix

/-! ### Messages of a URScript program -/

namespace UrScript

/-- A message is written as a call with its literal. -/
theorem message_text (literal : String) :
    (Statement.message literal).text = "textmsg(" ++ literal ++ ")" := by
  simp [Statement.text, call, listed, String.append_assoc]

theorem Draft.mem_step_message {v : Visit Float} (happlied : v.applied = true) {text : String}
    (hmessage : v.action.command = .message text) (d : Decimals) (inlineTargets : Bool)
    (draft : Draft) :
    .code v.action [.message (quoted text)] ∈ (step d inlineTargets draft v).body := by
  simp only [step, happlied, Bool.not_true, Bool.false_eq_true, if_false, hmessage]
  exact List.mem_append_right _ List.mem_cons_self

/-- **A message that was carried out is called for**, with its text as a literal. -/
theorem infix_message {v : Visit Float} {options : ProgramOptions} {c : Cursor Float}
    (hv : v ∈ c.visits options.blockOnly) (happlied : v.applied = true) {text : String}
    (hmessage : v.action.command = .message text) (d : Decimals) (time name : String) :
    ("textmsg(" ++ quoted text ++ ")").toList <:+:
      (program d time name options c).text.toList := by
  let look : Look := ⟨comment, dialect, options.comments, 2⟩
  let line := look.indented ((Statement.message (quoted text)).text ++ look.annotation v.action)
  have hentry : .code v.action [.message (quoted text)] ∈
      (draft d options.inlineTargets (c.visits options.blockOnly)).body :=
    Program.mem_of_mem_step Draft.body (Draft.step_body d options.inlineTargets)
      (Draft.mem_step_message happlied hmessage d options.inlineTargets) _ hv
  have hline : line ∈ (program d time name options c).lines := by
    refine List.mem_append_left _ (List.mem_append_right _ ?_)
    exact List.mem_flatMap.mpr ⟨_, hentry, List.mem_cons_self⟩
  have hcall : ("textmsg(" ++ quoted text ++ ")").toList <:+: line.toList := by
    rw [← message_text]
    simp only [line, Look.indented, String.toList_append]
    exact (List.prefix_append _ _).isInfix.trans (List.suffix_append _ _).isInfix
  exact hcall.trans (Program.infix_text hline)

end UrScript

/-! ### Texts in instructions -/

theorem Call.infix_argument {c : Call} {argument : Argument} (h : argument ∈ c.arguments) :
    argument.render.toList <:+: c.render.toList := by
  have hrendered : argument.render ∈ c.arguments.map Argument.render := List.mem_map_of_mem h
  have harguments := Text.infix_toList_intercalate ", " hrendered
  simp only [render, String.toList_append]
  exact harguments.trans ((List.suffix_append _ _).isInfix.trans (List.prefix_append _ _).isInfix)

/-! ### Reading back -/

/-- **Quoted texts read back.** The literal of any text starts and ends with a double quote,
every double quote in between is escaped, and taking the backslashes away gives the text. So
reading it stops at its closing quote, whatever follows: behind each message in a URScript
program, and behind each text in an instruction. -/
theorem quoted_texts_read_back :
    (∀ text : String, Literal text.toList (quoted text).toList) ∧
    (∀ d time name options (c : Cursor Float), ∀ v ∈ c.visits options.blockOnly,
      v.applied = true → ∀ text, v.action.command = .message text →
        ∃ before after, (UrScript.program d time name options c).text.toList =
            before ++ "textmsg(".toList ++ ((quoted text).toList ++ ')' :: after) ∧
          readLiteral? ((quoted text).toList ++ ')' :: after) =
            some (text.toList, ')' :: after)) ∧
    ∀ (command : Command Float), ∀ text, .text text ∈ command.call.arguments →
      ∃ before after, command.instruction.toList = before ++ ((quoted text).toList ++ after) ∧
        readLiteral? ((quoted text).toList ++ after) = some (text.toList, after) := by
  refine ⟨Text.literal_quoted, ?_, ?_⟩
  · intro d time name options c v hv happlied text hmessage
    obtain ⟨before, after, htext⟩ := UrScript.infix_message hv happlied hmessage d time name
    refine ⟨before, after, ?_, Text.readLiteral?_quoted_append text _⟩
    rw [← htext]
    simp [String.toList_append]
  · intro command text htext
    obtain ⟨before, after, hcall⟩ := Call.infix_argument htext
    refine ⟨before, after, ?_, Text.readLiteral?_quoted_append text after⟩
    rw [Command.instruction, ← hcall, List.append_assoc]
    rfl

/-- Requests with a message that holds a double quote and ends in a backslash. -/
def Fleet.folderNamed : List (Fleet.Operation Float) :=
  [.add "ur" false none [], .start 0 .origin .standard,
    .issue 0 ⟨1, .message "look in \"C:\\"⟩]

/-- The quote behind a text that ends in a backslash is read as the one that closes it. -/
theorem quoted_texts_read_back_folderNamed :
    Text.quoted "look in \"C:\\" = "\"look in \\\"C:\\\\\"" ∧
      Literal "look in \"C:\\".toList "\"look in \\\"C:\\\\\"".toList ∧
      (∃ c, (Fleet.empty.run Fleet.folderNamed).cursor? 0 = some c ∧
        ∃ before after, (UrScript.program .standard "" "" .standard c).text.toList =
            before ++ "textmsg(".toList ++ ((quoted "look in \"C:\\").toList ++ ')' :: after) ∧
          readLiteral? ((quoted "look in \"C:\\").toList ++ ')' :: after) =
            some ("look in \"C:\\".toList, ')' :: after)) ∧
      ∃ before after, (Command.message "look in \"C:\\").instruction.toList =
          before ++ ((quoted "look in \"C:\\").toList ++ after) ∧
        readLiteral? ((quoted "look in \"C:\\").toList ++ after) =
          some ("look in \"C:\\".toList, after) := by
  obtain ⟨hliteral, hprogram, hinstruction⟩ := quoted_texts_read_back
  have hquoted : Text.quoted "look in \"C:\\" = "\"look in \\\"C:\\\\\"" := by
    decide +kernel
  refine ⟨hquoted, ?_, ?_, hinstruction (.message _) _ List.mem_cons_self⟩
  · rw [← hquoted]
    exact hliteral _
  · have hvisits : ((Fleet.empty.run Fleet.folderNamed).cursor? 0).map (fun c =>
        (c.visits false).map fun v => (v.action.command, v.applied)) =
        some [(.message "look in \"C:\\", true)] := by
      decide +kernel
    obtain ⟨c, hc, hlist⟩ := Option.map_eq_some_iff.mp hvisits
    obtain ⟨v, hv, hmessage⟩ := List.mem_map.mp (hlist ▸ List.mem_cons_self)
    obtain ⟨hcommand, happlied⟩ := Prod.mk.inj hmessage
    exact ⟨c, hc, hprogram .standard "" "" .standard c v hv happlied _ hcommand⟩

end RobotMotion
