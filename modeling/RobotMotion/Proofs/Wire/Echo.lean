import RobotMotion.Proofs.Text.Blanks
import RobotMotion.Proofs.Wire.Acknowledgment
import RobotMotion.Proofs.Wire.Framing

/-!
# What acknowledges a frame

A controller answers a frame by a text that begins with `>` in place of `@`. `Acknowledges`
is the grammar of such answers: apart from blanks, a number between the two marks, and behind
it anything that a blank separates from it. An answer is read for an identifier exactly if it
follows the grammar (`acknowledged?_eq_some_iff`).

The text of a frame with its first mark changed (`echo`) follows it, whatever stands in the
parameters, and is read for the identifier of the frame (`acknowledged?_echo`). So it is for
all that a controller is sent (`acknowledgments_exact`).
-/

namespace RobotMotion.Wire

namespace Abb

open Text (Blank BlankNext Tight Unspaced)

/-! ### Answers of a controller -/

/-- The texts that acknowledge an identifier. -/
inductive Acknowledges : List Char → Nat → Prop where
  /-- blanks may stand around the marks and in front of the number, a plus may stand in front
  of its digits, and a blank ends it if the closing mark does not -/
  | intro {before lead sign digits rest after : List Char} (hbefore : Blank before)
    (hlead : Blank lead) (hsign : sign = [] ∨ sign = ['+'])
    (hdigits : digits ≠ [] ∧ ∀ c ∈ digits, c.isDigit = true) (hrest : BlankNext rest)
    (hafter : Blank after) (hsmall : Nat.ofDigitChars 10 digits 0 < Action.idLimit) :
    Acknowledges (before ++ '>' :: (lead ++ (sign ++ digits) ++ rest ++ [';']) ++ after)
      (Nat.ofDigitChars 10 digits 0)

/-- A text with a mark in front is the mark and the rest. -/
theorem afterFirst?_eq_some_iff {c : Char} {s rest : List Char} :
    afterFirst? c s = some rest ↔ s = c :: rest := by
  cases s with
  | nil => constructor <;> (intro h; cases h)
  | cons d more =>
    rw [afterFirst?, List.cons.injEq]
    by_cases hd : d = c
    · rw [if_pos hd, Option.some.injEq]
      exact (and_iff_right hd).symm
    · rw [if_neg hd]
      constructor
      · intro h
        cases h
      · rintro ⟨hsame, -⟩
        exact absurd hsame hd

/-- A text with a mark at its end is the front and the mark. -/
theorem beforeLast?_eq_some_iff {c : Char} {s front : List Char} :
    beforeLast? c s = some front ↔ s = front ++ [c] := by
  rw [beforeLast?, Option.map_eq_some_iff]
  constructor
  · rintro ⟨r, hr, rfl⟩
    rw [← List.reverse_reverse s, afterFirst?_eq_some_iff.mp hr, List.reverse_cons]
  · rintro rfl
    refine ⟨front.reverse, afterFirst?_eq_some_iff.mpr ?_, List.reverse_reverse front⟩
    rw [List.reverse_append]
    rfl

/-- An answer is read for the number that is the first word between its marks. -/
theorem acknowledged?_eq_some_iff_body {text : String} {id : Nat} :
    acknowledged? text = some id ↔ ∃ body, Text.trimmed text.toList = '>' :: (body ++ [';']) ∧
      Text.natural? (Text.firstWord body) = some id ∧ id < Action.idLimit := by
  simp only [acknowledged?, Option.bind_eq_bind, Option.bind_eq_some_iff,
    afterFirst?_eq_some_iff, beforeLast?_eq_some_iff]
  constructor
  · rintro ⟨_, htrimmed, body, rfl, n, hn, hsmall⟩
    split at hsmall
    · obtain rfl := Option.some.inj hsmall
      exact ⟨body, htrimmed, hn, ‹_›⟩
    · cases hsmall
  · rintro ⟨body, htrimmed, hn, hsmall⟩
    exact ⟨_, htrimmed, body, rfl, id, hn, if_pos hsmall⟩

/-- No blank stands where the marks are. -/
theorem tight_marked (body : List Char) : Tight ('>' :: (body ++ [';'])) where
  first c hc := by
    obtain rfl := Option.some.inj hc
    rfl
  last c hc := by
    rw [← List.cons_append, List.getLast?_concat] at hc
    obtain rfl := Option.some.inj hc
    rfl

/-- There are no blanks in a number. -/
theorem unspaced_number {sign digits : List Char} (hsign : sign = [] ∨ sign = ['+'])
    (hdigits : ∀ c ∈ digits, c.isDigit = true) : Unspaced (sign ++ digits) := by
  intro c hc
  rcases List.mem_append.mp hc with hc | hc
  · obtain rfl | rfl := hsign
    · cases hc
    · obtain rfl := List.mem_singleton.mp hc
      rfl
  · exact Text.isBlank_of_isDigit (hdigits c hc)

/-- **An answer is read for an identifier exactly if it acknowledges it.** -/
theorem acknowledged?_eq_some_iff {text : String} {id : Nat} :
    acknowledged? text = some id ↔ Acknowledges text.toList id := by
  rw [acknowledged?_eq_some_iff_body]
  constructor
  · rintro ⟨body, htrimmed, hn, hsmall⟩
    obtain ⟨-, before, after, htext, hbefore, hafter⟩ := Text.trimmed_eq_iff.mp htrimmed
    obtain ⟨sign, digits, hword, hsign, hvalue⟩ := Text.natural?_eq_some_iff.mp hn
    obtain ⟨hdigits, rfl⟩ := Text.digits?_eq_some_iff.mp hvalue
    -- the first word is told from where it stands, as long as it is not empty
    have hne : sign ++ digits ≠ [] := List.append_ne_nil_of_right_ne_nil sign hdigits.1
    obtain ⟨-, lead, rest, rfl, hlead, hrest⟩ := (Text.firstWord_eq_iff hne).mp hword
    rw [htext]
    exact .intro hbefore hlead hsign hdigits hrest hafter hsmall
  · generalize htext : text.toList = characters
    rintro ⟨hbefore, hlead, hsign, hdigits, hrest, hafter, hsmall⟩
    refine ⟨_, (tight_marked _).trimmed_append hbefore hafter, ?_, hsmall⟩
    rw [(Text.firstWord_eq_iff (List.append_ne_nil_of_right_ne_nil _ hdigits.1)).mpr
      ⟨unspaced_number hsign hdigits.2, _, _, rfl, hlead, hrest⟩]
    exact Text.natural?_eq_some_iff.mpr
      ⟨_, _, rfl, hsign, Text.digits?_eq_some_iff.mpr ⟨hdigits, rfl⟩⟩

/-- Blanks stand around the marks and after the number, and a mark behind it. -/
example : acknowledged? " >\t+0042 done; \u00a0;\r\n" = some 42 := by decide +kernel

/-- A number is not cut where it grows too large, and a sign needs digits. -/
example : ["> 18446744073709551615;", ">18446744073709551616;", ">+;", ">7"].map acknowledged? =
    [some 18446744073709551615, none, none, none] := by decide +kernel

/-! ### Frames that come back -/

/-- The answer that acknowledges a frame: its text with `>` in front in place of `@`. -/
def echo (frame : String) : String :=
  match frame.toList with
  | '@' :: rest => String.ofList ('>' :: rest)
  | _ => frame

theorem Frame.toList_echo (frame : Frame) : (echo frame.text).toList =
    '>' :: ([] ++ Nat.toDigits 10 frame.id ++
      ' ' :: (Nat.toDigits 10 frame.opcode.code ++ frame.parameterText) ++ [';']) := by
  rw [echo, frame.toList_text]
  simp

/-- **The answer to a frame is read for its identifier**, if this is not too large, and for
no other, whatever stands in the parameters. -/
theorem acknowledged?_echo {frame : Frame} {id : Nat} :
    acknowledged? (echo frame.text) = some id ↔ frame.id = id ∧ id < Action.idLimit := by
  have hword : Text.firstWord ([] ++ Nat.toDigits 10 frame.id ++
      ' ' :: (Nat.toDigits 10 frame.opcode.code ++ frame.parameterText)) =
        Nat.toDigits 10 frame.id := by
    refine (Text.firstWord_eq_iff Nat.toDigits_ne_nil).mpr ⟨fun c hc => ?_, [], _, rfl,
      Text.blank_nil, fun c hc => ?_⟩
    · exact Text.isBlank_of_isDigit (Decimal.isDigit_of_mem_toDigits hc)
    · obtain rfl := Option.some.inj hc
      rfl
  have hnumber : Text.natural? (Nat.toDigits 10 frame.id) = some frame.id :=
    Text.natural?_eq_some_iff.mpr ⟨[], _, rfl, .inl rfl, Text.digits?_toDigits _⟩
  rw [acknowledged?_eq_some_iff_body, frame.toList_echo, (tight_marked _).trimmed_eq]
  constructor
  · rintro ⟨body, hbody, hn, hsmall⟩
    -- between the marks stands the text of the frame and nothing else
    obtain rfl := List.append_cancel_right (List.cons.inj hbody).2
    rw [hword, hnumber] at hn
    exact ⟨Option.some.inj hn, hsmall⟩
  · rintro ⟨rfl, hsmall⟩
    exact ⟨_, rfl, by rw [hword, hnumber], hsmall⟩

/-! ### Whole sessions -/

/-- The identifiers of the messages that a request calls for. Only the last one asks for an
acknowledgment, and that of the action that is released. -/
def answerIds (i : Nat) (f : Fleet Float) (op : Fleet.Operation Float) : List Nat :=
  match (Protocol.abb.answer i f op).length, f.next? i with
  | k + 1, some ((a, _), _) => List.replicate k noAcknowledgment ++ [a.id]
  | _, _ => []

/-- The identifiers of the messages that reach the controller of a cursor. -/
def exchangedIds (i : Nat) : Fleet Float → List Call → List Nat
  | _, [] => []
  | f, .operation op :: rest => answerIds i f op ++ exchangedIds i (f.after op) rest
  | f, .request id _ :: rest => id :: exchangedIds i f rest

/-- The identifier of a frame is read in its message. -/
theorem id?_message (frame : Frame) : Protocol.abb.id? frame.message = some frame.id := by
  rw [Protocol.id?, Frame.message, Protocol.read?, read?_text]
  rfl

variable {i : Nat} {f : Fleet Float}

theorem answerIds_of_nil {op : Fleet.Operation Float} (h : Protocol.abb.answer i f op = []) :
    answerIds i f op = [] := by
  rw [answerIds, h]
  rfl

/-- The messages that a request calls for have these identifiers. -/
theorem map_id?_answer (i : Nat) (f : Fleet Float) (op : Fleet.Operation Float) :
    (Protocol.abb.answer i f op).map Protocol.abb.id? = (answerIds i f op).map some := by
  by_cases hnil : Protocol.abb.answer i f op = []
  · rw [hnil, answerIds_of_nil hnil]
    rfl
  · obtain rfl : op = .next i := by
      by_contra hop
      exact hnil (Protocol.answer_of_ne hop)
    cases hstream : Protocol.abb.stream? f i with
    | none =>
      have hnothing := Protocol.stream?_eq_none_iff.mp hstream
      exact absurd (Protocol.call_of_nothing_waits _ hnothing).1 hnil
    | some called =>
      obtain ⟨messages, g⟩ := called
      obtain ⟨c, a, rest, hc, hp⟩ := Protocol.exists_pending_of_stream? hstream
      obtain ⟨g', queue, hvisit, hnext, -⟩ := Protocol.stream?_eq Protocol.abb hc hp
      have hanswer := Protocol.answer_next hvisit
      rw [hanswer] at hnil
      have hids := (Protocol.acknowledges_visit .abb c.device a).ids nofun hnil
      -- with `k + 1` messages, `k` of them stand in front of the last
      obtain ⟨k, hk⟩ := Nat.exists_eq_succ_of_ne_zero (mt List.eq_nil_of_length_eq_zero hnil)
      rw [answerIds, hanswer, hids, hk, hnext]
      simp

/-- What reaches the controller of a cursor has these identifiers. -/
theorem map_id?_exchanged (i : Nat) (f : Fleet Float) (calls : List Call) :
    (exchanged i f calls).map Protocol.abb.id? = (exchangedIds i f calls).map some := by
  induction calls generalizing f with
  | nil => rfl
  | cons call rest ih =>
    cases call with
    | operation op =>
      rw [exchanged, exchangedIds, List.map_append, List.map_append, map_id?_answer, ih]
    | request id opcode =>
      rw [exchanged, exchangedIds, List.map_cons, List.map_cons, id?_message, ih]
      rfl

/-- **Acknowledgments are read exactly.** A text is read for an identifier exactly if it
follows the grammar of answers. And whatever requests reach a fleet, and whatever is asked of
the controller of a cursor in between:

* the messages are the texts of frames that the protocol has;
* these are built with zero or with the identifier of the action that is released, or with
  that of the query or order;
* the answer to each is read for the identifier that it is built with, if this fits into 64
  bits, and for nothing else. -/
theorem acknowledgments_exact :
    (∀ (text : String) (id : Nat), acknowledged? text = some id ↔ Acknowledges text.toList id) ∧
    ∀ (i : Nat) (f : Fleet Float) (calls : List Call), ∃ frames : List Frame,
      (∀ frame ∈ frames, Emitted frame) ∧ exchanged i f calls = frames.map Frame.message ∧
        frames.map Frame.id = exchangedIds i f calls ∧
        ∀ frame ∈ frames, ∀ id, acknowledged? (echo frame.text) = some id ↔
          frame.id = id ∧ id < Action.idLimit := by
  refine ⟨fun text id => acknowledged?_eq_some_iff, fun i f calls => ?_⟩
  have hframes : ∀ m ∈ exchanged i f calls, ∃ frame, Emitted frame ∧ frame.message = m :=
    fun m hm => exists_frame_of_mem_exchanged hm
  obtain ⟨frames, hemitted, hmessages⟩ := Protocol.exists_frames hframes
  refine ⟨frames, hemitted, hmessages, ?_, fun frame _ id => acknowledged?_echo⟩
  have hids := map_id?_exchanged i f calls
  rw [hmessages, List.map_map] at hids
  refine List.map_injective_iff.mpr (fun _ _ => Option.some.inj) ?_
  rw [← hids, List.map_map]
  exact List.map_congr_left fun frame _ => (id?_message frame).symm

/-- Requests that leave a message with marks in it to be shown, under the greatest identifier
there is, after two settings that are taken back. -/
def marksShown : List (Fleet.Operation Float) :=
  [.add "arm" false none [], .start 0 .origin .standard, .issue 0 ⟨1, .pushSettings⟩,
    .issue 0 ⟨2, .setting .speed 50 false⟩, .issue 0 ⟨3, .setting .precision 3 false⟩,
    .issue 0 ⟨8, .popSettings⟩, .issue 0 ⟨18446744073709551615, .message ">7;\n @9 \"x\";"⟩]

/-- All is acknowledged, the first of the two settings under zero. -/
theorem acknowledgments_exact_marksShown :
    let calls := List.replicate 4 (Call.operation (.next 0)) ++
      [.request 0 .getPosition, .operation (.next 0), .request 5 .stopExecution]
    ∃ frames : List Frame,
      exchanged 0 (Fleet.empty.run marksShown) calls = frames.map Frame.message ∧
      frames.map Frame.id = [2, 3, 0, 8, 0, 18446744073709551615, 5] ∧
      ∀ frame ∈ frames, acknowledged? (echo frame.text) = some frame.id := by
  intro calls
  obtain ⟨frames, -, hmessages, hids, hread⟩ :=
    acknowledgments_exact.2 0 (Fleet.empty.run marksShown) calls
  have hcomputed : exchangedIds 0 (Fleet.empty.run marksShown) calls =
      [2, 3, 0, 8, 0, 18446744073709551615, 5] := by decide +kernel
  rw [hcomputed] at hids
  refine ⟨frames, hmessages, hids, fun frame hframe => ?_⟩
  have hmem : frame.id ∈ [2, 3, 0, 8, 0, 18446744073709551615, 5] := by
    rw [← hids]
    exact List.mem_map_of_mem hframe
  have hsmall : ∀ id ∈ [2, 3, 0, 8, 0, 18446744073709551615, 5], id < Action.idLimit := by decide
  exact (hread frame hframe _).mpr ⟨rfl, hsmall _ hmem⟩

end Abb

end RobotMotion.Wire
