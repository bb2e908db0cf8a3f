import RobotMotion.Proofs.Decimal.Equality
import RobotMotion.Proofs.Text.Reading
import RobotMotion.Wire.Stream

/-!
# What a controller reads in a message

A controller takes three things from a message: its identifier, the number of its
opcode, and the parameters as they are written. `Protocol.read?` does so for texts and
for words, and gives back what the frames were made of (`Abb.read?_text`,
`Ur.read?_words`).

A message for a setting reads as that setting, with parameters that depend on the value
alone (`Protocol.setting?_encodeSetting?`), and no other message reads as one
(`Protocol.setting?_encode?`). Values that compare as equal have the same parameters
(`Protocol.parameter?_of_beq`).
-/

namespace RobotMotion

namespace Wire

/-- The parameters of a message, as they are written. -/
inductive Payload where
  | text (characters : List Char)
  | words (values : List Int)
deriving DecidableEq

/-- What a controller takes from a message. -/
structure Reading where
  id : Nat
  /-- the number of the opcode -/
  opcode : Int
  parameters : Payload
deriving DecidableEq

/-! ### Texts -/

namespace Abb

/-- What stands before the first blank, and what comes after it. -/
def cutAtBlank (s : List Char) : List Char × List Char :=
  (s.takeWhile (· != ' '), (s.dropWhile (· != ' ')).tail)

/-- What a controller takes from the text of a frame. -/
def read? (frame : String) : Option Reading := do
  let body ← beforeLast? ';' (← afterFirst? '@' frame.toList)
  let (id, rest) := cutAtBlank body
  let (opcode, parameters) := cutAtBlank rest
  return ⟨← Text.digits? id, ← Text.digits? opcode, .text parameters⟩

/-- The parameters of a frame with a blank in front of each. -/
def Frame.parameterText (f : Frame) : List Char :=
  f.parameters.flatMap fun p => ' ' :: p.text.toList

theorem Frame.toList_text (f : Frame) :
    f.text.toList = '@' :: (Nat.toDigits 10 f.id ++
      ' ' :: (Nat.toDigits 10 f.opcode.code ++ f.parameterText)) ++ [';'] := by
  simp [Frame.text, Decimal.natural, parameterText, List.flatMap_map]

/-- Digits are cut off before the first blank. -/
theorem cutAtBlank_toDigits (n : Nat) {rest : List Char}
    (h : rest = [] ∨ ∃ tail, rest = ' ' :: tail) :
    cutAtBlank (Nat.toDigits 10 n ++ rest) = (Nat.toDigits 10 n, rest.tail) := by
  have hdigits : ∀ c ∈ Nat.toDigits 10 n, (c != ' ') = true := by
    intro c hc
    have hdigit := Nat.isDigit_of_mem_toDigits (by decide) (by decide) hc
    rw [bne_iff_ne]
    rintro rfl
    cases hdigit
  rw [cutAtBlank, List.takeWhile_append_of_pos hdigits, List.dropWhile_append_of_pos hdigits]
  rcases h with rfl | ⟨tail, rfl⟩ <;> simp

/-- **The text of a frame reads back.** -/
theorem read?_text (f : Frame) :
    read? f.text = some ⟨f.id, f.opcode.code, .text f.parameterText.tail⟩ := by
  have hparameters : f.parameterText = [] ∨ ∃ tail, f.parameterText = ' ' :: tail := by
    rw [Frame.parameterText]
    cases f.parameters with
    | nil => exact .inl rfl
    | cons p rest => exact .inr ⟨_, rfl⟩
  simp [read?, f.toList_text, afterFirst?, beforeLast?, cutAtBlank_toDigits _ hparameters,
    cutAtBlank_toDigits f.id (.inr ⟨_, rfl⟩), Text.digits?_toDigits]

/-- The opcodes that stand for settings. -/
def settingOpcode? : Quantity → Option Opcode
  | .speed => some .speed
  | .precision => some .zone
  | .acceleration => some .acceleration
  | .extrusionRate => none

theorem settingFrame?_quantity (id : Nat) (q : Quantity) (value : Float) :
    settingFrame? id (.quantity q value) =
      (settingOpcode? q).map fun opcode => ⟨id, opcode, [lengthParameter value]⟩ := by
  cases q <;> rfl

end Abb

/-! ### Words -/

namespace Ur

/-- What a controller takes from the words of a frame. -/
def read? : List Int → Option Reading
  | id :: opcode :: values => if 0 ≤ id then some ⟨id.toNat, opcode, .words values⟩ else none
  | _ => none

/-- A frame has words exactly if its identifier and its values fit. -/
theorem words?_eq_some_iff {id : Nat} {opcode : Opcode} {parameters : List Parameter}
    {words : List Int} :
    words? id opcode parameters = some words ↔ (id : Int) < wordLimit ∧
      ∃ values, parameters.mapM (fun p => fixedPoint p.value p.factor) = some values ∧
        words = (id : Int) :: opcode.code :: values := by
  rw [words?, wireId]
  -- without room for the identifier there are no words, whatever the parameters
  by_cases hid : (id : Int) < wordLimit
  · simp only [hid, if_true, Option.bind_eq_bind, Option.bind_some, Option.pure_def,
      Option.bind_eq_some_iff, Option.some.injEq, true_and]
    simp only [eq_comm]
  · simp [hid]

/-- **The words of a frame read back.** -/
theorem read?_words (id : Nat) (opcode : Opcode) (values : List Int) :
    read? ((id : Int) :: opcode.code :: values) = some ⟨id, opcode.code, .words values⟩ := by
  simp [read?]

/-- The opcodes that stand for settings. -/
def settingOpcode? : Quantity → Option Opcode
  | .speed => some .speed
  | .acceleration => some .acceleration
  | .precision => some .blend
  | .extrusionRate => none

theorem settingWords?_quantity (id : Nat) (q : Quantity) (value : Float) :
    settingWords? id (.quantity q value) =
      (settingOpcode? q).bind fun opcode => words? id opcode [lengthParameter value] := by
  cases q with
  | extrusionRate => rfl
  | _ => rw [settingWords?, settingOpcode?, Option.bind_some]

end Ur

/-! ### Messages -/

namespace Protocol

/-- What a controller takes from a message. -/
def read? : Protocol → Message → Option Reading
  | .abb, .text frame => Abb.read? frame
  | .ur, .binary words => Ur.read? words
  | _, _ => none

/-- The number of the opcode that stands for a setting. -/
def settingCode? (p : Protocol) (q : Quantity) : Option Int :=
  match p with
  | .abb => (Abb.settingOpcode? q).map fun opcode => opcode.code
  | .ur => (Ur.settingOpcode? q).map Ur.Opcode.code

/-- The setting that an opcode stands for. -/
def settingOfCode? (p : Protocol) (code : Int) : Option Quantity :=
  [Quantity.speed, .acceleration, .precision].find? fun q => p.settingCode? q == some code

/-- The setting that a message is for, and what it says. -/
def setting? (p : Protocol) (m : Message) : Option (Quantity × Payload) := do
  let reading ← p.read? m
  return (← p.settingOfCode? reading.opcode, reading.parameters)

/-- The identifier of a message. -/
def id? (p : Protocol) (m : Message) : Option Nat := (p.read? m).map Reading.id

/-- What a message says of a setting that has a value. -/
def parameter? (p : Protocol) (q : Quantity) (value : Float) : Option Payload :=
  ((p.encodeSetting? noAcknowledgment (.quantity q value)).bind p.read?).map Reading.parameters

/-- The identifiers that a message can carry. -/
def Carries (p : Protocol) (id : Nat) : Prop := p = .ur → id < wordLimit

/-- Different settings have different opcodes. -/
theorem settingOfCode?_of_settingCode? {p : Protocol} {q : Quantity} {code : Int}
    (h : p.settingCode? q = some code) : p.settingOfCode? code = some q := by
  cases p <;> cases q <;> first | (obtain rfl := Option.some.inj h; rfl) | cases h

/-- A message for a setting carries the identifier, the opcode of the setting, and
parameters that depend on the value alone. -/
theorem read?_encodeSetting? {p : Protocol} {id : Nat} {q : Quantity} {value : Float}
    {m : Message} (h : p.encodeSetting? id (.quantity q value) = some m) :
    ∃ code parameters, p.settingCode? q = some code ∧ p.parameter? q value = some parameters ∧
      p.read? m = some ⟨id, code, parameters⟩ := by
  cases p with
  | abb =>
    simp only [encodeSetting?, Abb.settingFrame?_quantity, Option.map_map,
      Option.map_eq_some_iff] at h
    obtain ⟨opcode, ho, rfl⟩ := h
    refine ⟨opcode.code, _, ?_, ?_, Abb.read?_text _⟩
    · simp [settingCode?, ho]
    · simp only [parameter?, encodeSetting?, Abb.settingFrame?_quantity, ho, Option.map_some,
        Option.bind_some, read?, Abb.read?_text]
      rfl
  | ur =>
    simp only [encodeSetting?, Ur.settingWords?_quantity, Option.map_eq_some_iff,
      Option.bind_eq_some_iff, Ur.words?_eq_some_iff] at h
    obtain ⟨_, ⟨opcode, ho, -, values, hvalues, rfl⟩, rfl⟩ := h
    refine ⟨opcode.code, .words values, ?_, ?_, Ur.read?_words ..⟩
    · simp [settingCode?, ho]
    · have hwords : Ur.words? noAcknowledgment opcode [Ur.lengthParameter value] = some _ :=
        Ur.words?_eq_some_iff.mpr ⟨by decide, values, hvalues, rfl⟩
      simp only [parameter?, encodeSetting?, Ur.settingWords?_quantity, ho, hwords,
        Option.map_some, Option.bind_some, read?, Ur.read?_words]

/-- A setting that has parameters has a message under every identifier that can be
carried. -/
theorem exists_encodeSetting? {p : Protocol} {id : Nat} {q : Quantity} {value : Float}
    (hid : p.Carries id) (h : (p.parameter? q value).isSome = true) :
    ∃ m, p.encodeSetting? id (.quantity q value) = some m := by
  cases p with
  | abb =>
    cases ho : Abb.settingOpcode? q with
    | none =>
      rw [parameter?, encodeSetting?, Abb.settingFrame?_quantity, ho] at h
      cases h
    | some opcode => simp [encodeSetting?, Abb.settingFrame?_quantity, ho]
  | ur =>
    cases hm : ur.encodeSetting? noAcknowledgment (.quantity q value) with
    | none =>
      rw [parameter?, hm] at h
      cases h
    | some m =>
      simp only [encodeSetting?, Ur.settingWords?_quantity, Option.map_eq_some_iff,
        Option.bind_eq_some_iff, Ur.words?_eq_some_iff] at hm ⊢
      obtain ⟨_, ⟨opcode, ho, -, values, hvalues, -⟩, -⟩ := hm
      exact ⟨_, _, ⟨opcode, ho, hid rfl, values, hvalues, rfl⟩, rfl⟩

/-- The message for a setting is read as one for it. -/
theorem setting?_encodeSetting? {p : Protocol} {id : Nat} {q : Quantity} {value : Float}
    {m : Message} (h : p.encodeSetting? id (.quantity q value) = some m) :
    p.setting? m = (p.parameter? q value).map (q, ·) := by
  obtain ⟨code, parameters, hcode, hparameters, hread⟩ := read?_encodeSetting? h
  rw [setting?, hread, hparameters]
  simp [settingOfCode?_of_settingCode? hcode]

/-- The message for a setting carries the identifier that it was given. -/
theorem id?_encodeSetting? {p : Protocol} {id : Nat} {q : Quantity} {value : Float}
    {m : Message} (h : p.encodeSetting? id (.quantity q value) = some m) :
    p.id? m = some id := by
  obtain ⟨code, parameters, -, -, hread⟩ := read?_encodeSetting? h
  rw [id?, hread]
  rfl

/-- An action that chooses a setting has the message of the value that it led to. -/
theorem encode?_setting (p : Protocol) (id : Nat) (q : Quantity) (value : Float) (relative : Bool)
    (s : State Float) :
    p.encode? ⟨id, .setting q value relative⟩ s =
      p.encodeSetting? id (.quantity q (s.settings.quantity q)) := by
  cases p <;> rw [encode?, encodeSetting?] <;> rfl

/-- The message of any other action carries its identifier, in frames of text. -/
theorem read?_encode?_abb {action : Action Float} {s : State Float} {m : Message}
    (hnot : ∀ q value relative, action.command ≠ .setting q value relative)
    (h : abb.encode? action s = some m) :
    ∃ r, abb.read? m = some r ∧ r.id = action.id ∧ abb.settingOfCode? r.opcode = none := by
  obtain ⟨f, hf, rfl⟩ := Option.map_eq_some_iff.mp h
  suffices hframe : f.id = action.id ∧ abb.settingOfCode? f.opcode.code = none from
    ⟨_, Abb.read?_text f, hframe⟩
  obtain ⟨id, command⟩ := action
  cases command with
  | setting q value relative => exact absurd rfl (hnot q value relative)
  -- the opcode of a motion depends on how the device moves
  | translation | rotation | transformation =>
    obtain ⟨_, -, rfl⟩ := Option.map_eq_some_iff.mp hf
    refine ⟨rfl, ?_⟩
    cases s.settings.motion <;> rfl
  | axes | attachTool =>
    obtain ⟨_, -, rfl⟩ := Option.map_eq_some_iff.mp hf
    exact ⟨rfl, rfl⟩
  | _ =>
    first
    | obtain rfl := Option.some.inj hf
      exact ⟨rfl, rfl⟩
    | cases hf

/-- The message of any other action carries its identifier, in words. -/
theorem read?_encode?_ur {action : Action Float} {s : State Float} {m : Message}
    (hnot : ∀ q value relative, action.command ≠ .setting q value relative)
    (h : ur.encode? action s = some m) :
    ∃ r, ur.read? m = some r ∧ r.id = action.id ∧ ur.settingOfCode? r.opcode = none := by
  obtain ⟨words, hwords, rfl⟩ := Option.map_eq_some_iff.mp h
  have hframe {opcode : Ur.Opcode} {parameters : List Ur.Parameter}
      (hopcode : ur.settingOfCode? opcode.code = none)
      (hw : Ur.words? action.id opcode parameters = some words) :
      ∃ r, ur.read? (.binary words) = some r ∧ r.id = action.id ∧
        ur.settingOfCode? r.opcode = none := by
    obtain ⟨-, values, -, rfl⟩ := Ur.words?_eq_some_iff.mp hw
    exact ⟨_, Ur.read?_words .., rfl, hopcode⟩
  obtain ⟨id, command⟩ := action
  cases command with
  | setting q value relative => exact absurd rfl (hnot q value relative)
  | translation | rotation | transformation =>
    obtain ⟨_, -, hw⟩ := Option.bind_eq_some_iff.mp hwords
    refine hframe ?_ hw
    cases s.settings.motion <;> rfl
  | axes | attachTool =>
    obtain ⟨_, -, hw⟩ := Option.bind_eq_some_iff.mp hwords
    exact hframe rfl hw
  | wait millis => exact hframe rfl hwords
  | detachTool => exact hframe rfl hwords
  | writeDigital pin on toolPin =>
    obtain ⟨_, -, hw⟩ := Option.bind_eq_some_iff.mp hwords
    refine hframe ?_ hw
    cases toolPin <;> rfl
  | writeAnalog pin value toolPin =>
    simp only [Ur.actionWords?] at hwords
    split at hwords
    · cases hwords
    · split at hwords
      · obtain ⟨_, -, hw⟩ := Option.bind_eq_some_iff.mp hwords
        exact hframe rfl hw
      · cases hwords
  | _ => cases hwords

/-- The message of any other action carries its identifier and is for no setting. -/
theorem read?_encode? {p : Protocol} {action : Action Float} {s : State Float} {m : Message}
    (hnot : ∀ q value relative, action.command ≠ .setting q value relative)
    (h : p.encode? action s = some m) :
    ∃ r, p.read? m = some r ∧ r.id = action.id ∧ p.settingOfCode? r.opcode = none := by
  cases p with
  | abb => exact read?_encode?_abb hnot h
  | ur => exact read?_encode?_ur hnot h

/-- No other message is read as one for a setting. -/
theorem setting?_encode? {p : Protocol} {action : Action Float} {s : State Float} {m : Message}
    (hnot : ∀ q value relative, action.command ≠ .setting q value relative)
    (h : p.encode? action s = some m) : p.setting? m = none := by
  obtain ⟨r, hread, -, hcode⟩ := read?_encode? hnot h
  simp [setting?, hread, hcode]

/-- **The message of an action carries the identifier of the action.** -/
theorem id?_encode? {p : Protocol} {action : Action Float} {s : State Float} {m : Message}
    (h : p.encode? action s = some m) : p.id? m = some action.id := by
  by_cases hsetting : ∃ q value relative, action.command = .setting q value relative
  · obtain ⟨q, value, relative, hc⟩ := hsetting
    obtain ⟨id, command⟩ := action
    obtain rfl := hc
    rw [encode?_setting] at h
    exact id?_encodeSetting? h
  · have hnot : ∀ q value relative, action.command ≠ .setting q value relative :=
      fun q value relative hc => hsetting ⟨q, value, relative, hc⟩
    obtain ⟨r, hread, hid, -⟩ := read?_encode? hnot h
    rw [id?, hread]
    exact congrArg some hid

/-! ### Equal values -/

/-- A thousandth of a zero is sent as zero, whatever its sign. -/
theorem Ur.fixedPoint_zero {x : Float} {s : Float.Model.UnpackedFloat.Sign}
    (h : x.toModel.unpack = .zero s) :
    fixedPoint (Ur.lengthParameter x).value (Ur.lengthParameter x).factor = some 0 := by
  rw [Ur.lengthParameter, Decimal.div_eq, h]
  cases s <;> decide +kernel

/-- **Values that compare as equal have the same parameters.** -/
theorem parameter?_of_beq (p : Protocol) (q : Quantity) {a b : Float} (h : (a == b) = true) :
    p.parameter? q a = p.parameter? q b := by
  cases p with
  | abb =>
    have hsame : Abb.lengthParameter a = Abb.lengthParameter b := by
      rw [Abb.lengthParameter, Abb.lengthParameter, Decimal.fixed_of_beq h]
    simp only [parameter?, encodeSetting?, Abb.settingFrame?_quantity, hsame]
  | ur =>
    have hsame (id : Nat) (opcode : Ur.Opcode) :
        Ur.words? id opcode [Ur.lengthParameter a] =
          Ur.words? id opcode [Ur.lengthParameter b] := by
      have hvalue : fixedPoint (Ur.lengthParameter a).value (Ur.lengthParameter a).factor =
          fixedPoint (Ur.lengthParameter b).value (Ur.lengthParameter b).factor := by
        -- equal values are the same, or zeros of any signs
        rcases Decimal.eq_or_zeros_of_beq h with hunpacked | ⟨s, t, hs, ht⟩
        · rw [Ur.lengthParameter, Ur.lengthParameter, Decimal.div_eq, Decimal.div_eq, hunpacked]
        · rw [Ur.fixedPoint_zero hs, Ur.fixedPoint_zero ht]
      simp only [Ur.words?, List.mapM_cons, List.mapM_nil, hvalue]
    simp only [parameter?, encodeSetting?, Ur.settingWords?_quantity, hsame]

end Protocol

end Wire

end RobotMotion
