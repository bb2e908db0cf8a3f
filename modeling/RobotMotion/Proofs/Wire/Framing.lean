import RobotMotion.Proofs.Decimal.Numeral
import RobotMotion.Proofs.Text.Pieces
import RobotMotion.Proofs.Wire.Drain
import RobotMotion.Proofs.Wire.Reading

/-!
# Texts cut apart again

Frames in texts follow each other without anything in between, and what users write stands
in them as it is: messages, and the names of pins. `Abb.received?` cuts such a stream into
frames at semicolons outside of quotes, and a frame into its parameters at blanks outside
of quotes.

That this gives back what was sent rests on the parameters alone (`Abb.Parameter.Sealed`).
A bare one is a number, whose characters are neither marks nor quotes, also where it is not
a number or infinite; a quoted one has lost its quotes. Every frame that goes out has such
parameters (`Abb.Emitted.sealed`), and so any row of them reads back
(`Abb.received?_texts`, `Protocol.texts_read_back`).
-/

namespace RobotMotion.Wire

namespace Abb

/-! ### Reading a stream of texts -/

/-- What a controller reads in a frame: its identifier, the number of its opcode, and the
texts of its parameters. -/
structure Fields where
  id : Nat
  opcode : Nat
  parameters : List String
deriving DecidableEq, Repr

/-- The fields of a frame without its semicolon. -/
def fields? (body : List Char) : Option Fields := do
  match Text.pieces ' ' false (← afterFirst? '@' body) with
  | id :: opcode :: parameters =>
    return ⟨← Text.digits? id, ← Text.digits? opcode, parameters.map String.ofList⟩
  | _ => none

/-- The fields of the frames that a text is made of. -/
def received? (text : String) : Option (List Fields) := do
  (← Text.terminated? ';' text.toList).mapM fields?

/-- What is to be read in a frame. -/
def Frame.fields (frame : Frame) : Fields :=
  ⟨frame.id, frame.opcode.code, frame.parameters.map Parameter.text⟩

/-! ### Parameters that nothing else can be read in -/

/-- A bare parameter is a number, and a quoted one holds no quotes and is not too long. -/
def Parameter.Sealed : Parameter → Prop
  | .bare s => Decimal.Numeral s
  | .quoted s => '"' ∉ s.toList ∧ s.length ≤ maxTextLength

/-- A frame with such parameters. -/
def Frame.Sealed (frame : Frame) : Prop := ∀ p ∈ frame.parameters, p.Sealed

/-- The texts of a number stay whole at a mark that cannot stand in a number. -/
theorem whole_numeral {s : String} (hs : Decimal.Numeral s) {mark : Char}
    (hmark : Decimal.isNumeral mark = false) : Text.Whole mark s.toList :=
  Text.whole_of_not_mem (hs.not_mem hmark) (hs.not_mem rfl)

/-- So do the digits of a natural number. -/
theorem whole_toDigits (n : Nat) {mark : Char} (hmark : Decimal.isNumeral mark = false) :
    Text.Whole mark (Nat.toDigits 10 n) := by
  have hdigits := whole_numeral (Decimal.numeral_toDigits n) hmark
  rwa [String.toList_ofList] at hdigits

/-- **No mark is read in a parameter.** -/
theorem Parameter.Sealed.whole {p : Parameter} (h : p.Sealed) {mark : Char}
    (hmark : Decimal.isNumeral mark = false) (hquote : mark ≠ '"') :
    Text.Whole mark p.text.toList := by
  cases p with
  | bare s => exact whole_numeral h hmark
  | quoted s =>
    have htext : (Parameter.quoted s).text.toList = '"' :: (s.toList ++ ['"']) := by
      simp [Parameter.text]
    rw [htext]
    exact Text.whole_quoted hquote h.1

/-- The words of a frame: its two numbers and its parameters. -/
def Frame.pieces (frame : Frame) : List (List Char) :=
  Nat.toDigits 10 frame.opcode.code :: frame.parameters.map fun p => p.text.toList

/-- No mark is read in any of its words. -/
theorem Frame.Sealed.whole_pieces {frame : Frame} (h : frame.Sealed) {mark : Char}
    (hmark : Decimal.isNumeral mark = false) (hquote : mark ≠ '"') :
    ∀ piece ∈ frame.pieces, Text.Whole mark piece := by
  intro piece hpiece
  rcases List.mem_cons.mp hpiece with rfl | hpiece
  · exact whole_toDigits _ hmark
  · obtain ⟨p, hp, rfl⟩ := List.mem_map.mp hpiece
    exact (h p hp).whole hmark hquote

/-- The text of a frame before its semicolon. -/
def Frame.body (frame : Frame) : List Char :=
  '@' :: (Nat.toDigits 10 frame.id ++ frame.pieces.flatMap (' ' :: ·))

/-- The text of a frame is its body and a semicolon. -/
theorem Frame.toList_text_eq_body (frame : Frame) : frame.text.toList = frame.body ++ [';'] := by
  simp [frame.toList_text, body, pieces, parameterText, List.flatMap_map]

/-- Joined texts stay whole. -/
theorem whole_flatMap_cons {mark blank : Char} (hblank : Text.Whole mark [blank])
    {texts : List (List Char)} (h : ∀ t ∈ texts, Text.Whole mark t) :
    Text.Whole mark (texts.flatMap (blank :: ·)) := by
  induction texts with
  | nil => rfl
  | cons t rest ih =>
    rw [List.flatMap_cons]
    exact (hblank.append (h t List.mem_cons_self)).append
      (ih fun u hu => h u (List.mem_cons_of_mem _ hu))

/-- **No semicolon ends a frame early.** -/
theorem Frame.Sealed.whole_body {frame : Frame} (h : frame.Sealed) :
    Text.Whole ';' frame.body := by
  have hat : Text.Whole ';' ['@'] := rfl
  have hblank : Text.Whole ';' [' '] := rfl
  exact hat.append ((whole_toDigits _ rfl).append
    (whole_flatMap_cons hblank (h.whole_pieces rfl (by decide))))

/-- **A frame reads back.** -/
theorem Frame.Sealed.fields?_body {frame : Frame} (h : frame.Sealed) :
    fields? frame.body = some frame.fields := by
  have hpieces : Text.pieces ' ' false
      (Nat.toDigits 10 frame.id ++ frame.pieces.flatMap (' ' :: ·)) =
        Nat.toDigits 10 frame.id :: frame.pieces :=
    Text.pieces_flatMap_cons (whole_toDigits _ rfl) (h.whole_pieces rfl (by decide))
  simp only [fields?, Frame.body, afterFirst?, if_true, Option.bind_eq_bind, Option.bind_some,
    hpieces]
  simp [Frame.pieces, Text.digits?_toDigits, Frame.fields, Function.comp_def]

/-- **Frames one after the other read back.** -/
theorem received?_texts {frames : List Frame} (h : ∀ frame ∈ frames, frame.Sealed) :
    received? (String.join (frames.map Frame.text)) = some (frames.map Frame.fields) := by
  have htext : (String.join (frames.map Frame.text)).toList =
      (frames.map Frame.body).flatMap (· ++ [';']) := by
    simp [String.toList_join, List.flatMap_map, Frame.toList_text_eq_body]
  -- semicolons end the bodies; the blanks in them are looked at one frame after the other
  have hbodies : ∀ body ∈ frames.map Frame.body, Text.Whole ';' body := by
    intro body hbody
    obtain ⟨frame, hframe, rfl⟩ := List.mem_map.mp hbody
    exact (h frame hframe).whole_body
  -- each body is cut at its blanks by itself
  have hfields : (frames.map Frame.body).mapM fields? = some (frames.map Frame.fields) := by
    clear htext hbodies
    induction frames with
    | nil => rfl
    | cons frame rest ih =>
      have hrest := ih fun other hother => h other (List.mem_cons_of_mem _ hother)
      simp only [List.map_cons, List.mapM_cons, (h frame List.mem_cons_self).fields?_body, hrest,
        Option.bind_eq_bind, Option.bind_some, Option.pure_def]
  rw [received?, htext, Text.terminated?_flatMap hbodies]
  exact hfields

/-- What looks like a frame within quotes is none. -/
example : received? "@7 7 \"a; b @1 7 'c'\";@8 101;" =
    some [⟨7, 7, ["\"a; b @1 7 'c'\""]⟩, ⟨8, 101, []⟩] := by decide +kernel

/-! ### Frames that go out -/

/-- The frames that go out. -/
inductive Emitted : Frame → Prop where
  /-- for an action, given the state after it -/
  | action {a : Action Float} {s : State Float} {frame : Frame} (h : frame? a s = some frame) :
    Emitted frame
  /-- for a setting that took a value -/
  | setting {id : Nat} {change : SettingChange Float} {frame : Frame}
    (h : settingFrame? id change = some frame) : Emitted frame
  /-- for the controller itself -/
  | request (id : Nat) (opcode : Opcode) : Emitted (request id opcode)

/-- A text loses its quotes before it is sent, and what is beyond eighty characters. -/
theorem sealed_textParameter (s : String) : (textParameter s).Sealed := by
  refine ⟨?_, ?_⟩
  · intro hmem
    rw [String.toList_ofList] at hmem
    obtain ⟨c, -, hc⟩ := List.mem_map.mp (List.mem_of_mem_take hmem)
    split at hc
    · cases hc
    · contradiction
  · rw [String.length_ofList, List.length_take]
    exact Nat.min_le_left ..

/-- A length is the text of a number. -/
theorem sealed_lengthParameter (x : Float) : (lengthParameter x).Sealed :=
  Decimal.numeral_fixed x 3

/-- So are several. -/
theorem sealed_of_mem_lengths {values : List Float} :
    ∀ p ∈ values.map lengthParameter, p.Sealed := by
  intro p hp
  obtain ⟨x, -, rfl⟩ := List.mem_map.mp hp
  exact sealed_lengthParameter x

/-- A pose is three lengths and four numbers of a rotation. -/
theorem sealed_of_mem_poseParameters {position : Vector3 Float} {rotation : Rotation Float} :
    ∀ p ∈ poseParameters position rotation, p.Sealed := by
  intro p hp
  rcases List.mem_append.mp hp with hp | hp
  · exact sealed_of_mem_lengths p hp
  · obtain ⟨x, -, rfl⟩ := List.mem_map.mp hp
    exact Decimal.numeral_fixed x 6

/-- A tool is a pose, a weight and a centre. -/
theorem sealed_of_mem_toolParameters {t : Tool Float} :
    ∀ p ∈ toolParameters t, p.Sealed := by
  intro p hp
  rcases List.mem_append.mp hp with hp | hp
  · rcases List.mem_append.mp hp with hp | hp
    · exact sealed_of_mem_poseParameters p hp
    · rw [List.mem_singleton.mp hp]
      exact Decimal.numeral_fixed _ 3
  · exact sealed_of_mem_lengths p hp

/-- An external axis has a length, or the number that stands for none. -/
theorem sealed_of_mem_externalParameters {axes : Option (ExternalAxes Float)} :
    ∀ p ∈ externalParameters axes, p.Sealed := by
  intro p hp
  obtain ⟨value, -, rfl⟩ := List.mem_map.mp hp
  cases value with
  | some v => exact sealed_lengthParameter v
  | none =>
    show Decimal.Numeral "9E9"
    decide

/-- The parameters of a pin and what is written to it. -/
theorem sealed_pin (pin : String) {p : Parameter} (hp : p.Sealed) :
    ∀ q ∈ [textParameter pin, p], q.Sealed := by
  intro q hq
  rcases List.mem_cons.mp hq with rfl | hq
  · exact sealed_textParameter pin
  · rw [List.mem_singleton.mp hq]
    exact hp

theorem sealed_singleton {p : Parameter} (hp : p.Sealed) : ∀ q ∈ [p], q.Sealed := by
  intro q hq
  rw [List.mem_singleton.mp hq]
  exact hp

/-- Settings are told as one number each. -/
theorem sealed_of_settingFrame? {id : Nat} {change : SettingChange Float} {frame : Frame}
    (h : settingFrame? id change = some frame) : frame.Sealed := by
  cases change with
  | quantity q value =>
    rw [settingFrame?_quantity] at h
    obtain ⟨opcode, -, rfl⟩ := Option.map_eq_some_iff.mp h
    exact sealed_singleton (sealed_lengthParameter value)
  | motion type => cases h
  | frame reference => cases h

/-- **The frames of actions have such parameters**, command by command. -/
theorem sealed_of_frame? {a : Action Float} {s : State Float} {frame : Frame}
    (h : frame? a s = some frame) : frame.Sealed := by
  obtain ⟨id, command⟩ := a
  cases command with
  | translation | rotation | transformation =>
    obtain ⟨_, -, rfl⟩ := Option.map_eq_some_iff.mp h
    exact sealed_of_mem_poseParameters
  | axes =>
    obtain ⟨_, -, rfl⟩ := Option.map_eq_some_iff.mp h
    exact sealed_of_mem_lengths
  | attachTool =>
    obtain ⟨_, -, rfl⟩ := Option.map_eq_some_iff.mp h
    exact sealed_of_mem_toolParameters
  | setting => exact sealed_of_settingFrame? h
  | externalAxis =>
    obtain rfl := Option.some.inj h
    exact sealed_of_mem_externalParameters
  | wait millis =>
    obtain rfl := Option.some.inj h
    exact sealed_singleton (sealed_lengthParameter _)
  | message text =>
    obtain rfl := Option.some.inj h
    exact sealed_singleton (sealed_textParameter text)
  | detachTool =>
    obtain rfl := Option.some.inj h
    exact nofun
  | writeDigital pin on _ =>
    obtain rfl := Option.some.inj h
    refine sealed_pin pin ?_
    cases on
    · show Decimal.Numeral "0"
      decide
    · show Decimal.Numeral "1"
      decide
  | writeAnalog pin value _ =>
    obtain rfl := Option.some.inj h
    exact sealed_pin pin (sealed_lengthParameter value)
  | _ => cases h

/-- **Every frame that goes out has parameters that nothing else can be read in.** -/
theorem Emitted.sealed {frame : Frame} (h : Emitted frame) : frame.Sealed := by
  cases h with
  | action h => exact sealed_of_frame? h
  | setting h => exact sealed_of_settingFrame? h
  | request id opcode => exact nofun

/-- The message that a frame is sent as. -/
def Frame.message (frame : Frame) : Message := .text frame.text

/-! ### Whole sessions -/

/-- What happens while a controller listens. -/
inductive Call where
  /-- a request to the fleet; the controller is sent what it has for the cursor -/
  | operation (op : Fleet.Operation Float)
  /-- a query or an order to the controller itself -/
  | request (id : Nat) (opcode : Opcode)

/-- The messages that reach the controller of a cursor. -/
def exchanged (i : Nat) : Fleet Float → List Call → List Message
  | _, [] => []
  | f, .operation op :: rest => Protocol.abb.answer i f op ++ exchanged i (f.after op) rest
  | f, .request id opcode :: rest => (request id opcode).message :: exchanged i f rest

/-- Whatever is encoded in a text is a frame that goes out. -/
theorem exists_frame_of_encoded {m : Message} (h : Protocol.abb.Encoded m) :
    ∃ frame, Emitted frame ∧ frame.message = m := by
  cases h with
  | action h =>
    obtain ⟨frame, hframe, rfl⟩ := Option.map_eq_some_iff.mp h
    exact ⟨frame, .action hframe, rfl⟩
  | setting h =>
    obtain ⟨frame, hframe, rfl⟩ := Option.map_eq_some_iff.mp h
    exact ⟨frame, .setting hframe, rfl⟩

/-- Whatever reaches a controller is one. -/
theorem exists_frame_of_mem_exchanged {i : Nat} {f : Fleet Float} {calls : List Call}
    {m : Message} (h : m ∈ exchanged i f calls) : ∃ frame, Emitted frame ∧ frame.message = m := by
  -- over the calls; requests to the fleet change it, orders to the controller do not
  induction calls generalizing f with
  | nil => cases h
  | cons call rest ih =>
    cases call with
    | operation op =>
      rcases List.mem_append.mp h with h | h
      · exact exists_frame_of_encoded (Protocol.encoded_of_mem_answer h)
      · exact ih h
    | request id opcode =>
      rcases List.mem_cons.mp h with rfl | h
      · exact ⟨_, .request id opcode, rfl⟩
      · exact ih h

end Abb

/-- **What is sent in texts reads back.** Whatever requests reach a fleet, and whatever is
asked of the controller of a cursor in between:

* the messages are the texts of frames that the protocol has;
* one after the other they are cut into the identifiers, opcodes and parameters of just
  these frames again, whatever stands in the quotes;
* and there stand at most eighty characters in quotes. -/
theorem Protocol.texts_read_back (f : Fleet Float) (i : Nat) (calls : List Abb.Call) :
    ∃ frames : List Abb.Frame, (∀ frame ∈ frames, Abb.Emitted frame) ∧
      Abb.exchanged i f calls = frames.map Abb.Frame.message ∧
      Abb.received? (String.join (frames.map Abb.Frame.text)) =
        some (frames.map Abb.Frame.fields) ∧
      ∀ frame ∈ frames, ∀ text, .quoted text ∈ frame.parameters → text.length ≤ 80 := by
  have hframes : ∀ m ∈ Abb.exchanged i f calls, ∃ frame, Abb.Emitted frame ∧ frame.message = m :=
    fun m hm => Abb.exists_frame_of_mem_exchanged hm
  obtain ⟨frames, hemitted, hmessages⟩ := exists_frames hframes
  refine ⟨frames, hemitted, hmessages, ?_, ?_⟩
  · exact Abb.received?_texts fun frame hframe => (hemitted frame hframe).sealed
  · intro frame hframe text htext
    exact ((hemitted frame hframe).sealed _ htext).2

end RobotMotion.Wire
