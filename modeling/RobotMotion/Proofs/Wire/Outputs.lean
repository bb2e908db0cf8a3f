import RobotMotion.Proofs.Program.Steps.UrScript
import RobotMotion.Proofs.Wire.FixedPoint
import RobotMotion.Proofs.Wire.Realization
import RobotMotion.Proofs.Wire.Visit

/-!
# Outputs of a UR controller

An output is written ahead of time by URScript, or live in a frame. Each has its own way of
telling which writes it takes: pins are read as numbers of 64 and of 32 bits, and range and
pin are looked at in different orders. `UrOutput.of?` says which output a command addresses,
if the controller has it and can bring it to the value; both ways take just these
(`UrScript.Draft.step_output`, `Wire.Ur.actionWords?_output`). So a program calls the
function of an output in one line exactly where the stream has a frame for it, for the same
pin and level, and else says in one line that there is no such output
(`Fleet.Reachable.outputs_agree`).
-/

namespace RobotMotion

open Program (Entry Look)
open Wire (wordLimit fixedPoint Message)

/-- Whether a command writes an output. -/
def Command.isOutput : Command Float → Bool
  | .writeDigital .. | .writeAnalog .. => true
  | _ => false

/-- The number that a text stands for, blanks around it aside, if it is one of zero to the
last. -/
def numberedPin? (last : Int) (pin : String) : Option Int :=
  (Text.integer? (Text.trimmed pin.toList)).filter fun n => 0 ≤ n && n ≤ last

/-- An output of a UR controller, with what it is set to. -/
inductive UrOutput where
  /-- switched on or off, on the tool flange or not -/
  | digital (toolPin : Bool) (pin : Int) (on : Bool)
  /-- brought to a voltage -/
  | analog (pin : Int) (volts : Float)

namespace UrOutput

/-- The output that a command addresses, if the controller has it and can bring it to the
value. The flange has two digital outputs and no analog ones. -/
def of? : Command Float → Option UrOutput
  | .writeDigital pin on toolPin =>
    (numberedPin? (if toolPin then 1 else 7) pin).map (.digital toolPin · on)
  | .writeAnalog pin volts false =>
    if 0.0 ≤ volts ∧ volts ≤ 10.0 then (numberedPin? 1 pin).map (.analog · volts) else none
  | _ => none

/-- The call of the URScript function that sets an output. -/
def call (d : Decimals) : UrOutput → String
  | .digital toolPin pin on =>
    (if toolPin then "set_tool_digital_out" else "set_standard_digital_out") ++ "(" ++
      pinText pin ++ ", " ++ (if on then "True" else "False") ++ ")"
  | .analog pin volts =>
    "set_standard_analog_out(" ++ pinText pin ++ ", " ++
      Decimal.fixed (volts / 10.0) (d.volts + 1) ++ ")"

/-- The words of the frame that sets an output: the identifier, the opcode of the family,
the pin, and the level or the voltage in millionths. -/
inductive Words (id : Nat) : UrOutput → List Int → Prop where
  | digital (toolPin : Bool) (pin : Int) (on : Bool) :
    Words id (.digital toolPin pin on)
      [id, if toolPin then 11 else 10, pin, if on then 1 else 0]
  | analog (pin : Int) (volts : Float) {word : Int}
      (hword : fixedPoint volts 1000000.0 = some word) :
    Words id (.analog pin volts) [id, 12, pin, word]

end UrOutput

/-! ### Pins -/

/-- A number in a range that every number of so many bits covers may be read with that many
bits. -/
theorem Text.filter_signed? (bits : Nat) {p : Int → Bool}
    (h : ∀ n, p n = true → -(Nat.pow 2 (bits - 1) : Int) ≤ n ∧ n < (Nat.pow 2 (bits - 1) : Int))
    (s : List Char) : (signed? bits s).filter p = (integer? s).filter p := by
  rw [signed?, Option.filter_filter]
  refine congrArg (Option.filter · (integer? s)) (funext fun n => ?_)
  cases hp : p n with
  | false => exact Bool.and_false _
  | true => simpa using h n hp

/-- A program reads pins with 64 bits, which is no narrower for the numbers of pins. -/
theorem pinNumber?_eq {last : Int} (hlast : last < 2 ^ 63) (pin : String) :
    pinNumber? 0 last pin = numberedPin? last pin := by
  rw [numberedPin?, ← Text.filter_signed? 64, pinNumber?]
  · cases Text.signed? 64 (Text.trimmed pin.toList) with
    | none => rfl
    | some n => simp [Option.filter]
  · intro n hn
    simp only [Bool.and_eq_true, decide_eq_true_eq] at hn
    have hlimit : (Nat.pow 2 (64 - 1) : Int) = 2 ^ 63 := rfl
    omega

/-- The stream reads pins with 32 bits, which is no narrower for the numbers of pins. -/
theorem Wire.Ur.pin?_eq {last : Int} (hlast : last < 2 ^ 31) (pin : String) :
    pin? last pin = numberedPin? last pin := by
  rw [numberedPin?, ← Text.filter_signed? 32, pin?]
  · cases Text.signed? 32 (Text.trimmed pin.toList) with
    | none => rfl
    | some n => simp [Option.filter]
  · intro n hn
    simp only [Bool.and_eq_true, decide_eq_true_eq] at hn
    have hlimit : (Nat.pow 2 (32 - 1) : Int) = 2 ^ 31 := rfl
    omega

theorem numberedPin?_eq_some_iff {last n : Int} {pin : String} :
    numberedPin? last pin = some n ↔
      Text.integer? (Text.trimmed pin.toList) = some n ∧ 0 ≤ n ∧ n ≤ last := by
  rw [numberedPin?, Option.filter_eq_some_iff, Bool.and_eq_true, decide_eq_true_eq,
    decide_eq_true_eq]

/-! ### The frame -/

namespace Wire

/-- A pin or a level is sent as it stands. -/
theorem fixedPoint_pin {n : Int} (hlow : 0 ≤ n) (hhigh : n ≤ 7) :
    fixedPoint (Float.ofInt n) 1.0 = some n := by
  refine fixedPoint_ofInt (fitsWord_iff.mpr ?_)
  rw [wordLimit]
  omega

/-- **Every voltage that an output can be brought to can be sent.** -/
theorem exists_fixedPoint_volts {volts : Float} (hlow : 0.0 ≤ volts) (hhigh : volts ≤ 10.0) :
    ∃ word, fixedPoint volts voltageFactor = some word := by
  have hleast : fixedPoint 0.0 voltageFactor = some 0 := by decide +kernel
  have hgreatest : fixedPoint 10.0 voltageFactor = some 10000000 := by decide +kernel
  obtain ⟨word, hword, -⟩ :=
    exists_fixedPoint_of_between (by decide +kernel) hleast hgreatest hlow hhigh
  exact ⟨word, hword⟩

/-- A frame of values that fit has words. -/
theorem Ur.words?_pair {id : Nat} (hid : (id : Int) < wordLimit) (opcode : Opcode)
    {p q : Parameter} {m n : Int} (hp : fixedPoint p.value p.factor = some m)
    (hq : fixedPoint q.value q.factor = some n) :
    words? id opcode [p, q] = some [(id : Int), opcode.code, m, n] := by
  refine words?_eq_some_iff.mpr ⟨hid, [m, n], ?_, rfl⟩
  simp [hp, hq]

/-- A frame for a pin and a level. -/
theorem Ur.words?_level {id : Nat} (hid : (id : Int) < wordLimit) (opcode : Opcode) {n : Int}
    (hlow : 0 ≤ n) (hhigh : n ≤ 7) (on : Bool) :
    words? id opcode [wholeParameter n, wholeParameter (if on then 1 else 0)] =
      some [(id : Int), opcode.code, n, if on then 1 else 0] := by
  refine words?_pair hid opcode (fixedPoint_pin hlow hhigh) ?_
  cases on
  · exact fixedPoint_pin (by decide) (by decide)
  · exact fixedPoint_pin (by decide) (by decide)

/-- **The stream takes just the outputs that the controller has**, and sends their words. -/
theorem Ur.actionWords?_output {action : Action Float} (houtput : action.command.isOutput = true)
    (hid : (action.id : Int) < wordLimit) (s : State Float) :
    (∃ o words, UrOutput.of? action.command = some o ∧ actionWords? action s = some words ∧
        o.Words action.id words) ∨
      UrOutput.of? action.command = none ∧ actionWords? action s = none := by
  obtain ⟨id, command⟩ := action
  dsimp only at houtput hid ⊢
  cases command with
  | writeDigital pin on toolPin =>
    -- every pin of either family is a number of 32 bits, so reading pins with so many is no
    -- narrower
    have hlast : (if toolPin then 1 else 7 : Int) ≤ 7 := by cases toolPin <;> decide
    have hwords : actionWords? ⟨id, .writeDigital pin on toolPin⟩ s =
        (numberedPin? (if toolPin then 1 else 7) pin).bind fun n =>
          words? id (if toolPin then .setToolDigital else .setDigital)
            [wholeParameter n, wholeParameter (if on then 1 else 0)] := by
      rw [← pin?_eq (hlast.trans_lt (by decide))]
      cases toolPin <;> rfl
    rw [hwords, UrOutput.of?]
    cases hpin : numberedPin? (if toolPin then 1 else 7) pin with
    | none => exact .inr ⟨rfl, rfl⟩
    | some n =>
      obtain ⟨-, hlow, hhigh⟩ := numberedPin?_eq_some_iff.mp hpin
      rw [Option.map_some, Option.bind_some,
        words?_level hid _ hlow (hhigh.trans hlast) on]
      refine .inl ⟨_, _, rfl, rfl, ?_⟩
      cases toolPin <;> exact .digital _ n on
  | writeAnalog pin volts toolPin =>
    cases toolPin with
    | true => exact .inr ⟨rfl, rfl⟩
    | false =>
      have hwords : actionWords? ⟨id, .writeAnalog pin volts false⟩ s =
          if 0.0 ≤ volts && volts ≤ 10.0 then (numberedPin? 1 pin).bind fun n =>
            words? id .setAnalog [wholeParameter n, ⟨volts, voltageFactor⟩] else none := by
        rw [← pin?_eq (by decide)]
        rfl
      rw [hwords, UrOutput.of?]
      -- the stream looks at the voltage first, as `UrOutput.of?` does
      by_cases hvolts : 0.0 ≤ volts ∧ volts ≤ 10.0
      · rw [if_pos hvolts, if_pos (by simpa using hvolts)]
        cases hpin : numberedPin? 1 pin with
        | none => exact .inr ⟨rfl, rfl⟩
        | some n =>
          obtain ⟨-, hlow, hhigh⟩ := numberedPin?_eq_some_iff.mp hpin
          obtain ⟨word, hword⟩ := exists_fixedPoint_volts hvolts.1 hvolts.2
          have hframe : words? id .setAnalog [wholeParameter n, ⟨volts, voltageFactor⟩] =
              some [(id : Int), Opcode.code .setAnalog, n, word] :=
            words?_pair hid _ (fixedPoint_pin hlow (by omega)) hword
          rw [Option.map_some, Option.bind_some, hframe]
          rw [voltageFactor] at hword
          exact .inl ⟨_, _, rfl, rfl, .analog n volts hword⟩
      · rw [if_neg hvolts, if_neg (by simpa using hvolts)]
        exact .inr ⟨rfl, rfl⟩
  | _ => cases houtput

end Wire

/-! ### The line -/

namespace UrScript

/-- A call of two arguments. -/
theorem call_two (function a b : String) :
    call function [a, b] = function ++ "(" ++ a ++ ", " ++ b ++ ")" := by
  simp [call, listed, String.append_assoc]

/-- **A program takes just the outputs that the controller has**, and calls their functions. -/
theorem Draft.step_output {v : Visit Float} (houtput : v.action.command.isOutput = true)
    (happlied : v.applied = true) (d : Decimals) (inlineTargets : Bool) (draft : Draft) :
    (∃ o statement, UrOutput.of? v.action.command = some o ∧
        step d inlineTargets draft v = draft.write (.code v.action [statement]) ∧
        statement.text = o.call d) ∨
      UrOutput.of? v.action.command = none ∧ ∃ message,
        step d inlineTargets draft v = draft.write (.diagnostic v.action (.error message)) := by
  simp only [step, happlied, Bool.not_true, Bool.false_eq_true, if_false]
  cases hc : v.action.command with
  | writeDigital pin on toolPin =>
    have hlast : (digitalOutput toolPin).lastPin = if toolPin then 1 else 7 := by
      cases toolPin <;> rfl
    dsimp only
    rw [pinNumber?_eq (by rw [hlast]; cases toolPin <;> decide), hlast, UrOutput.of?]
    cases numberedPin? (if toolPin then 1 else 7) pin with
    | none => exact .inr ⟨rfl, _, rfl⟩
    | some n =>
      refine .inl ⟨_, _, rfl, rfl, ?_⟩
      rw [Statement.text, call_two]
      cases toolPin <;> rfl
  | writeAnalog pin volts toolPin =>
    cases toolPin with
    | true => exact .inr ⟨rfl, _, rfl⟩
    | false =>
      have hboth : (decide (0.0 ≤ volts) && decide (volts ≤ maxVolts)) = true ↔
          0.0 ≤ volts ∧ volts ≤ 10.0 := by
        rw [maxVolts, Bool.and_eq_true, decide_eq_true_eq, decide_eq_true_eq]
      dsimp only
      rw [pinNumber?_eq (by decide), UrOutput.of?]
      -- a program looks at the pin first: whichever is wrong, there is one error
      by_cases hvolts : 0.0 ≤ volts ∧ volts ≤ 10.0
      · rw [if_pos hvolts]
        cases numberedPin? 1 pin with
        | none => exact .inr ⟨rfl, _, rfl⟩
        | some n =>
          dsimp only
          rw [if_pos (hboth.mpr hvolts)]
          exact .inl ⟨_, _, rfl, rfl, call_two ..⟩
      · rw [if_neg hvolts]
        cases numberedPin? 1 pin with
        | none => exact .inr ⟨rfl, _, rfl⟩
        | some n =>
          dsimp only
          rw [if_neg (hvolts ∘ hboth.mp)]
          exact .inr ⟨rfl, _, rfl⟩
  | _ =>
    rw [hc] at houtput
    cases houtput

end UrScript

/-! ### Both together -/

namespace UrOutput

/-- A line of a program and the messages of a stream agree on the output that a visit
addresses: both set it, or neither does and the line says so. -/
inductive Agreed (d : Decimals) (mode : CommentMode) (v : Visit Float) :
    String → List Message → Prop where
  | taken {o : UrOutput} {words : List Int} (happlied : v.applied = true)
      (ho : of? v.action.command = some o) (hwords : o.Words v.action.id words) :
    Agreed d mode v
      ("  " ++ o.call d ++
        Look.annotation ⟨UrScript.comment, UrScript.dialect, mode, 2⟩ v.action)
      [.binary words]
  | refused (reason : String) (hwhy : v.applied = false ∨ of? v.action.command = none) :
    Agreed d mode v ("  # ERROR: " ++ reason) []

end UrOutput

/-- What is reported is an error, unless it is for want of an instruction. -/
theorem UrScript.exists_error_line (mode : CommentMode) (action : Action Float)
    (what : Program.Diagnostic) (hwhat : what ≠ .unsupported) :
    ∃ reason, (⟨comment, dialect, mode, 2⟩ : Look).diagnosticLine action what =
      "  # ERROR: " ++ reason := by
  cases what with
  | failed =>
    refine ⟨"could not apply " ++ action.command.instruction, ?_⟩
    simp only [Look.diagnosticLine, Look.indented, comment, ← String.append_assoc]
    rfl
  | unsupported => exact absurd rfl hwhat
  | error message =>
    refine ⟨message ++ " (" ++ action.command.instruction ++ ")", ?_⟩
    simp only [Look.diagnosticLine, Look.indented, comment, ← String.append_assoc]
    rfl

/-- The messages of an output that was written are those of its action in any state. -/
theorem Wire.Protocol.messages_delivery_output {v : Visit Float}
    (houtput : v.action.command.isOutput = true) (happlied : v.applied = true) (s : State Float) :
    (ur.delivery v).messages = (ur.encode? v.action s).toList := by
  obtain ⟨⟨id, command⟩, rejection, device⟩ := v
  rw [delivery, if_pos happlied]
  cases command with
  | writeDigital | writeAnalog => rfl
  | _ => cases houtput

/-- **An output is written in one line**, which agrees with the messages. -/
theorem UrScript.Draft.step_agreed {v : Visit Float} (houtput : v.action.command.isOutput = true)
    (hid : (v.action.id : Int) < wordLimit) (d : Decimals) (mode : CommentMode)
    (inlineTargets : Bool) (draft : Draft) :
    ∃ entry line, step d inlineTargets draft v = draft.write entry ∧
      (⟨comment, dialect, mode, 2⟩ : Look).entryLines Statement.text entry = [line] ∧
        UrOutput.Agreed d mode v line (Wire.Protocol.ur.delivery v).messages := by
  cases happlied : v.applied with
  | false =>
    have hstep : step d inlineTargets draft v = draft.write (.diagnostic v.action .failed) := by
      simp only [step, happlied, Bool.not_false, if_true]
    have hmessages : (Wire.Protocol.ur.delivery v).messages = [] := by
      rw [Wire.Protocol.delivery, happlied]
      rfl
    obtain ⟨reason, hline⟩ := exists_error_line mode v.action .failed (by simp)
    rw [hmessages]
    exact ⟨_, _, hstep, congrArg ([·]) hline, .refused reason (.inl happlied)⟩
  | true =>
    rw [Wire.Protocol.messages_delivery_output houtput happlied v.state, Wire.Protocol.encode?]
    rcases Wire.Ur.actionWords?_output houtput hid v.state with
      ⟨o, words, ho, hwords, hsent⟩ | ⟨hnone, hwords⟩
    · rw [hwords]
      rcases step_output houtput happlied d inlineTargets draft with
        ⟨o', statement, ho', hstep, htext⟩ | ⟨hnone, -⟩
      · obtain rfl := Option.some.inj (ho.symm.trans ho')
        refine ⟨_, _, hstep, ?_, .taken happlied ho hsent⟩
        rw [Look.entryLines, List.map_singleton, Look.codeLines, Look.indented, htext,
          ← String.append_assoc, List.map_nil]
        rfl
      · rw [ho] at hnone
        cases hnone
    · rw [hwords]
      rcases step_output houtput happlied d inlineTargets draft with
        ⟨o, _, ho, -, -⟩ | ⟨-, message, hstep⟩
      · rw [hnone] at ho
        cases ho
      · obtain ⟨reason, hline⟩ := exists_error_line mode v.action (.error message) (by simp)
        exact ⟨_, _, hstep, congrArg ([·]) hline, .refused reason (.inr hnone)⟩

/-- **URScript and the stream take the same outputs.** At every reachable cursor, for every
write of an output whose identifier a frame can carry:

* the program has one line for it, and nothing else in the program is of its action;
* the line calls the function of an output, and the stream has one frame for the same output,
  or the line says that there is an error, and the stream has no frame;
* where the write applied, its frame is the same in whatever state it is encoded. -/
theorem Fleet.Reachable.outputs_agree {f : Fleet Float} (hf : f.Reachable) {i : Nat}
    {c : Cursor Float} (hc : f.cursor? i = some c) (d : Decimals) (time name : String)
    (options : ProgramOptions) {v : Visit Float} (hv : v ∈ c.visits options.blockOnly)
    (houtput : v.action.command.isOutput = true) (hid : (v.action.id : Int) < wordLimit) :
    let draft := UrScript.draft d options.inlineTargets (c.visits options.blockOnly)
    let look : Look := ⟨UrScript.comment, UrScript.dialect, options.comments, 2⟩
    let declarations := look.lines UrScript.Declaration.text draft.declarations
    let messages := (Wire.Protocol.ur.delivery v).messages
    ∃ before entry line after,
      (Dialect.urscript.program d time name options c).lines =
        Program.header time UrScript.comment (Program.safeName name) UrScript.dialect ++
          ["", "def " ++ Program.safeName name ++ "():"] ++
          (if declarations.isEmpty then [] else declarations ++ [""]) ++
          (look.lines UrScript.Statement.text before ++
            line :: look.lines UrScript.Statement.text after) ++
          ["end"] ∧
      draft.body = before ++ entry :: after ∧
      look.entryLines UrScript.Statement.text entry = [line] ∧
      (∀ e ∈ before ++ after, e.isOf v.action.id = false) ∧
      (∀ e ∈ draft.declarations, e.isOf v.action.id = false) ∧
      UrOutput.Agreed d options.comments v line messages ∧
      (v.applied = true → ∀ s, (Wire.Protocol.ur.encode? v.action s).toList = messages) := by
  intro draft look declarations messages
  have hnodup := Cursor.nodup_visits (hf.increasing hc) options.blockOnly
  have hbodies := UrScript.Draft.step_body d options.inlineTargets
  have hdeclare := UrScript.Draft.step_declarations d options.inlineTargets
  have hempty : ∀ e ∈ UrScript.Draft.empty.body, e.action? = none :=
    fun e he => absurd he List.not_mem_nil
  have hempty' : ∀ e ∈ UrScript.Draft.empty.declarations, e.action? = none :=
    fun e he => absurd he List.not_mem_nil
  obtain ⟨past, added, before, after, hadded, hbody, hothers⟩ :=
    Program.exists_place_of_visit UrScript.Draft.body hbodies hempty hnodup hv
  obtain ⟨past', declared, before', after', hdeclared, hdeclarations, hothers'⟩ :=
    Program.exists_place_of_visit UrScript.Draft.declarations hdeclare hempty' hnodup hv
  obtain ⟨entry, line, hstep, hline, hagreed⟩ := UrScript.Draft.step_agreed houtput hid d
    options.comments options.inlineTargets past
  obtain ⟨entry', -, hstep', -⟩ := UrScript.Draft.step_agreed houtput hid d options.comments
    options.inlineTargets past'
  -- what the step adds is the entry, and it declares nothing
  obtain rfl : [entry] = added := by
    rw [hstep] at hadded
    exact List.append_cancel_left hadded
  obtain rfl : [] = declared := by
    rw [hstep'] at hdeclared
    exact (List.append_right_eq_self.mp hdeclared.symm).symm
  have hbody : draft.body = before ++ entry :: after := by
    rw [List.append_assoc] at hbody
    exact hbody
  refine ⟨before, entry, line, after, ?_, hbody, hline, hothers, ?_, hagreed, fun happlied s =>
    (Wire.Protocol.messages_delivery_output houtput happlied s).symm⟩
  · have hlines : look.lines UrScript.Statement.text draft.body =
        look.lines UrScript.Statement.text before ++
          line :: look.lines UrScript.Statement.text after := by
      rw [hbody, Look.lines, List.flatMap_append, List.flatMap_cons, hline]
      rfl
    rw [← hlines]
    rfl
  · intro e he
    refine hothers' e ?_
    rw [List.append_nil] at hdeclarations
    rw [← hdeclarations]
    exact he

/-- Requests that leave a digital write waiting, with blanks, a sign and a leading zero around
its pin. -/
def Fleet.gripperClosed : List (Fleet.Operation Float) :=
  [.add "ur" false none [], .start 0 .origin .standard,
    .issue 0 ⟨1, .writeDigital " +03 " true false⟩]

/-- Output three is switched on by a line of the program and by a frame. -/
theorem Fleet.outputs_agree_gripperClosed :
    ∃ c v, (Fleet.empty.run Fleet.gripperClosed).cursor? 0 = some c ∧
      v ∈ c.visits ProgramOptions.standard.blockOnly ∧
      (v.action.command, v.applied) = (.writeDigital " +03 " true false, true) ∧
      "  set_standard_digital_out(3, True)" ∈
        (Dialect.urscript.program .standard "" "" .standard c).lines ∧
      (Wire.Protocol.ur.delivery v).messages = [.binary [1, 10, 3, 1]] := by
  have hvisits : ((Fleet.empty.run Fleet.gripperClosed).cursor? 0).map (fun c =>
      (c.visits false).map fun v => (v.action.id, v.action.command, v.applied)) =
      some [(1, .writeDigital " +03 " true false, true)] := by
    decide +kernel
  obtain ⟨c, hc, hlist⟩ := Option.map_eq_some_iff.mp hvisits
  obtain ⟨v, hv, hwrite⟩ := List.mem_map.mp (hlist ▸ List.mem_cons_self)
  obtain ⟨hid, hcommand⟩ := Prod.mk.inj hwrite
  obtain ⟨hcommand', happlied⟩ := Prod.mk.inj hcommand
  obtain ⟨before, entry, line, after, hlines, -, -, -, -, hagreed, -⟩ :=
    Fleet.Reachable.outputs_agree (f := Fleet.empty.run Fleet.gripperClosed) ⟨_, rfl⟩ hc
      .standard "" "" .standard hv (by rw [hcommand']; rfl) (by rw [hid]; decide)
  have hof : UrOutput.of? v.action.command = some (.digital false 3 true) := by
    have hpin : numberedPin? 7 " +03 " = some 3 := by decide +kernel
    rw [hcommand', UrOutput.of?]
    exact congrArg (Option.map _) hpin
  refine ⟨c, v, hc, hv, hcommand, ?_⟩
  rw [hlines]
  generalize (Wire.Protocol.ur.delivery v).messages = messages at hagreed
  cases hagreed with
  | taken _ ho hwords =>
    obtain rfl := Option.some.inj (hof.symm.trans ho)
    cases hwords
    refine ⟨?_, by rw [hid]; rfl⟩
    exact List.mem_append_left _ (List.mem_append_right _
      (List.mem_append_right _ List.mem_cons_self))
  | refused _ hwhy =>
    rcases hwhy with hrejected | hnone
    · rw [happlied] at hrejected
      cases hrejected
    · rw [hof] at hnone
      cases hnone

end RobotMotion
