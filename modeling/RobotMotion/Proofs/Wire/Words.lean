import RobotMotion.Proofs.Wire.Reading
import RobotMotion.Proofs.Wire.Drain

/-!
# Words cut apart again

Nothing stands between the frames that are sent in words. They can be told apart all the
same: four bytes are a word, and the second word of a frame is its opcode, which alone
fixes how many values follow (`Ur.Opcode.arity`). `Ur.rows?` reads a stream in this way.

Every message in words is a `Ur.Frame`, which has as many values as its opcode asks for
and only such as fit into a word. Reading takes a frame off the front of any stream
(`Ur.rows?_append`), and so a stream reads as the frames that were sent
(`Protocol.words_read_back`).
-/

namespace RobotMotion.Wire

/-! ### Words in bytes -/

/-- The four bytes of a word that fits read back. -/
theorem wordOfBytes_wordBytes {n : Int} (h : fitsWord n = true) :
    ∃ a b c d, wordBytes n = [a, b, c, d] ∧ wordOfBytes a b c d = n := by
  rw [fitsWord_iff, wordLimit] at h
  refine ⟨_, _, _, _, rfl, ?_⟩
  simp only [wordOfBytes, wordLimit, Nat.toUInt8, UInt8.toNat_ofNat']
  omega

/-- The words that bytes make, four bytes a word. Absent when bytes are left over. -/
def wordsOfBytes? : List UInt8 → Option (List Int)
  | [] => some []
  | a :: b :: c :: d :: rest => (wordsOfBytes? rest).map (wordOfBytes a b c d :: ·)
  | _ => none

/-- **Words that fit read back from their bytes.** -/
theorem wordsOfBytes?_wordBytes {words : List Int} (h : ∀ n ∈ words, fitsWord n = true) :
    wordsOfBytes? (words.flatMap wordBytes) = some words := by
  induction words with
  | nil => rfl
  | cons n rest ih =>
    obtain ⟨a, b, c, d, hbytes, hword⟩ := wordOfBytes_wordBytes (h n List.mem_cons_self)
    have hrest := ih fun m hm => h m (List.mem_cons_of_mem _ hm)
    rw [List.flatMap_cons, hbytes]
    simp only [List.cons_append, List.nil_append, wordsOfBytes?, hrest, hword, Option.map_some]

namespace Ur

/-! ### Frames in words -/

/-- The number of values in a frame, which its opcode fixes. -/
def Opcode.arity : Opcode → Nat
  | .moveLinear | .moveJointPose | .moveJoint => 6
  | .speed | .acceleration | .blend | .wait => 1
  | .setTool => 10
  | .noTool => 0
  | .setDigital | .setToolDigital | .setAnalog => 2

/-- The opcode with a number. -/
def Opcode.ofCode? (code : Int) : Option Opcode :=
  [Opcode.moveLinear, .moveJointPose, .moveJoint, .speed, .acceleration, .blend, .wait, .setTool,
    .noTool, .setDigital, .setToolDigital, .setAnalog].find? fun opcode => opcode.code == code

theorem Opcode.ofCode?_code (opcode : Opcode) : ofCode? opcode.code = some opcode := by
  cases opcode <;> rfl

/-- A frame as it is sent. -/
structure Frame where
  id : Nat
  opcode : Opcode
  values : List Int
  id_lt : (id : Int) < wordLimit
  /-- the opcode alone fixes how many values there are -/
  length_values : values.length = opcode.arity
  values_fit : ∀ v ∈ values, fitsWord v = true

namespace Frame

/-- The words of a frame. -/
def words (frame : Frame) : List Int := frame.id :: frame.opcode.code :: frame.values

/-- The message that a frame is sent as. -/
def message (frame : Frame) : Message := .binary frame.words

theorem fitsWord_id (frame : Frame) : fitsWord frame.id = true := by
  refine fitsWord_iff.mpr ⟨?_, frame.id_lt⟩
  rw [wordLimit]
  omega

theorem words_fit (frame : Frame) : ∀ n ∈ frame.words, fitsWord n = true := by
  intro n hn
  rcases List.mem_cons.mp hn with rfl | hn
  · exact frame.fitsWord_id
  · rcases List.mem_cons.mp hn with rfl | hn
    · cases frame.opcode <;> rfl
    · exact frame.values_fit n hn

/-- **The bytes of a frame acknowledge its identifier.** -/
theorem acknowledged?_bytes (frame : Frame) :
    acknowledged? frame.message.bytes = some frame.id := by
  obtain ⟨a, b, c, d, hbytes, hword⟩ := wordOfBytes_wordBytes frame.fitsWord_id
  rw [message, Message.bytes, words, List.flatMap_cons, hbytes]
  simp [acknowledged?, hword]

end Frame

/-- The rows of words that a stream of words is made of: an identifier, an opcode, and as
many values as that asks for. Absent when there is no such opcode, or not enough values. -/
def rows? : List Int → Option (List (List Int))
  | [] => some []
  | [_] => none
  | id :: code :: rest => do
    let opcode ← Opcode.ofCode? code
    if opcode.arity ≤ rest.length then
      return (id :: code :: rest.take opcode.arity) :: (← rows? (rest.drop opcode.arity))
    else none
termination_by words => words.length
decreasing_by
  simp only [List.length_drop, List.length_cons]
  omega

/-- **A frame is cut off the front of any stream.** -/
theorem rows?_append (frame : Frame) (rest : List Int) :
    rows? (frame.words ++ rest) = (rows? rest).map (frame.words :: ·) := by
  -- the opcode says where the values end, whatever comes after them
  have hlength := frame.length_values
  have htake : (frame.values ++ rest).take frame.opcode.arity = frame.values :=
    List.take_left' hlength
  have hdrop : (frame.values ++ rest).drop frame.opcode.arity = rest :=
    List.drop_left' hlength
  have henough : frame.opcode.arity ≤ (frame.values ++ rest).length := by
    rw [List.length_append]
    omega
  rw [Frame.words, List.cons_append, List.cons_append, rows?]
  simp only [Opcode.ofCode?_code, Option.bind_eq_bind, Option.bind_some, henough, if_true, htake,
    hdrop]
  cases rows? rest <;> rfl

/-- A stream of frames reads as these frames. -/
theorem rows?_flatMap (frames : List Frame) :
    rows? (frames.flatMap Frame.words) = some (frames.map Frame.words) := by
  induction frames with
  | nil => simp [rows?]
  | cons frame rest ih => rw [List.flatMap_cons, rows?_append, ih, List.map_cons, Option.map_some]

/-- What a controller cuts out of the bytes that reach it. -/
def received? (bytes : List UInt8) : Option (List (List Int)) :=
  (wordsOfBytes? bytes).bind rows?

/-- **Bytes of frames one after the other read as these frames.** -/
theorem received?_messages (frames : List Frame) :
    received? ((frames.map Frame.message).flatMap Message.bytes) =
      some (frames.map Frame.words) := by
  have hbytes : (frames.map Frame.message).flatMap Message.bytes =
      (frames.flatMap Frame.words).flatMap wordBytes := by
    rw [List.flatMap_map, List.flatMap_assoc]
    rfl
  have hfit : ∀ n ∈ frames.flatMap Frame.words, fitsWord n = true := by
    intro n hn
    obtain ⟨frame, -, hn⟩ := List.mem_flatMap.mp hn
    exact frame.words_fit n hn
  rw [received?, hbytes, wordsOfBytes?_wordBytes hfit, Option.bind_some, rows?_flatMap]

/-- Two frames without a mark in between, one of them without values. -/
example : received? [0, 0, 0, 7, 0, 0, 0, 9, 0, 0, 0, 0, 0, 0, 0, 4, 255, 255, 255, 254] =
    some [[7, 9], [0, 4, -2]] := by decide +kernel

/-! ### Messages are frames -/

/-- Scaled values fit, and none is left out. -/
theorem values_of_mapM {parameters : List Parameter} {values : List Int}
    (h : parameters.mapM (fun p => fixedPoint p.value p.factor) = some values) :
    values.length = parameters.length ∧ ∀ v ∈ values, fitsWord v = true := by
  induction parameters generalizing values with
  | nil =>
    obtain rfl := Option.some.inj h
    exact ⟨rfl, nofun⟩
  | cons p rest ih =>
    simp only [List.mapM_cons, Option.bind_eq_bind, Option.bind_eq_some_iff, Option.pure_def,
      Option.some.injEq] at h
    obtain ⟨v, hv, more, hmore, rfl⟩ := h
    obtain ⟨hlength, hfit⟩ := ih hmore
    refine ⟨congrArg (· + 1) hlength, fun w hw => ?_⟩
    rcases List.mem_cons.mp hw with rfl | hw
    · exact fitsWord_of_fixedPoint hv
    · exact hfit w hw

/-- Words that were given as many parameters as their opcode asks for are a frame. -/
theorem exists_frame_of_words? {id : Nat} {opcode : Opcode} {parameters : List Parameter}
    {words : List Int} (h : words? id opcode parameters = some words)
    (hlength : parameters.length = opcode.arity) : ∃ frame : Frame, words = frame.words := by
  obtain ⟨hid, values, hvalues, rfl⟩ := words?_eq_some_iff.mp h
  obtain ⟨hsame, hfit⟩ := values_of_mapM hvalues
  exact ⟨⟨id, opcode, values, hid, hsame.trans hlength, hfit⟩, rfl⟩

theorem exists_frame_of_settingWords? {id : Nat} {change : SettingChange Float} {words : List Int}
    (h : settingWords? id change = some words) : ∃ frame : Frame, words = frame.words := by
  cases change with
  | quantity q value =>
    rw [settingWords?_quantity] at h
    obtain ⟨opcode, hopcode, h⟩ := Option.bind_eq_some_iff.mp h
    refine exists_frame_of_words? h ?_
    cases q with
    | extrusionRate => cases hopcode
    | _ =>
      obtain rfl := Option.some.inj hopcode
      rfl
  | motion type => cases h
  | frame frame => cases h

theorem exists_frame_of_actionWords? {action : Action Float} {s : State Float} {words : List Int}
    (h : actionWords? action s = some words) : ∃ frame : Frame, words = frame.words := by
  obtain ⟨id, command⟩ := action
  cases command with
  | translation | rotation | transformation =>
    obtain ⟨_, -, h⟩ := Option.bind_eq_some_iff.mp h
    refine exists_frame_of_words? h ?_
    cases s.settings.motion <;> rfl
  | axes =>
    obtain ⟨joints, -, h⟩ := Option.bind_eq_some_iff.mp h
    refine exists_frame_of_words? h ?_
    rw [List.length_map, Joints.length_radians]
    rfl
  | attachTool =>
    obtain ⟨_, -, h⟩ := Option.bind_eq_some_iff.mp h
    exact exists_frame_of_words? h rfl
  | setting q value relative => exact exists_frame_of_settingWords? h
  | wait millis => exact exists_frame_of_words? h rfl
  | detachTool => exact exists_frame_of_words? h rfl
  | writeDigital pin on toolPin =>
    obtain ⟨_, -, h⟩ := Option.bind_eq_some_iff.mp h
    refine exists_frame_of_words? h ?_
    cases toolPin <;> rfl
  | writeAnalog pin value toolPin =>
    simp only [actionWords?] at h
    split at h
    · cases h
    · split at h
      · obtain ⟨_, -, h⟩ := Option.bind_eq_some_iff.mp h
        exact exists_frame_of_words? h rfl
      · cases h
  | _ => cases h

end Ur

namespace Protocol

/-- Every message in words is a frame. -/
theorem exists_frame_of_encoded {m : Message} (h : ur.Encoded m) :
    ∃ frame : Ur.Frame, frame.message = m := by
  cases h with
  | action h =>
    obtain ⟨words, hwords, rfl⟩ := Option.map_eq_some_iff.mp h
    obtain ⟨frame, rfl⟩ := Ur.exists_frame_of_actionWords? hwords
    exact ⟨frame, rfl⟩
  | setting h =>
    obtain ⟨words, hwords, rfl⟩ := Option.map_eq_some_iff.mp h
    obtain ⟨frame, rfl⟩ := Ur.exists_frame_of_settingWords? hwords
    exact ⟨frame, rfl⟩

/-- **What is streamed in words reads back.** Whatever requests reach a fleet, and whatever
messages go out for a cursor meanwhile:

* they are frames, each with the number of values that its opcode fixes;
* their bytes, one after the other, are cut into just these frames again;
* the bytes of each acknowledge its identifier. -/
theorem words_read_back (f : Fleet Float) (i : Nat) (ops : List (Fleet.Operation Float)) :
    ∃ frames : List Ur.Frame, ur.sent i f ops = frames.map Ur.Frame.message ∧
      (∀ frame ∈ frames, frame.values.length = frame.opcode.arity) ∧
      Ur.received? ((ur.sent i f ops).flatMap Message.bytes) = some (frames.map Ur.Frame.words) ∧
      ∀ frame ∈ frames, Ur.acknowledged? frame.message.bytes = some frame.id := by
  have hframes : ∀ m ∈ ur.sent i f ops, ∃ frame : Ur.Frame, True ∧ frame.message = m := by
    intro m hm
    obtain ⟨frame, hframe⟩ := exists_frame_of_encoded (encoded_of_mem_sent hm)
    exact ⟨frame, trivial, hframe⟩
  obtain ⟨frames, -, hsent⟩ := exists_frames hframes
  refine ⟨frames, hsent, fun frame _ => frame.length_values, ?_,
    fun frame _ => frame.acknowledged?_bytes⟩
  rw [hsent]
  exact Ur.received?_messages frames

end Protocol

end RobotMotion.Wire
