import RobotMotion.Proofs.Program.Instructions
import RobotMotion.Proofs.Wire.Framing
import RobotMotion.Proofs.Wire.Visit

/-!
# One motion, two ways to ask for it

What waits at a cursor can be given to the same controller as a module or as a stream of
texts. In a stream the opcode says whether a frame is a motion or a pause, and its
parameters are the numbers (`Abb.order?`). For a visit there are just the orders that come
of its action (`Protocol.orders_delivery`), as in a module, and so both ask for the same
motions and pauses in the same order, digit by digit (`Protocol.motions_agree`).
-/

namespace RobotMotion.Wire

open Program (Look)

namespace Abb

/-- What a frame asks for: its opcode alone says whether it is a motion or a pause. -/
def Fields.order? (fields : Fields) : Option Order :=
  match fields.opcode with
  | 1 => some (.move .linear fields.parameters)
  | 2 => some (.move .joint fields.parameters)
  | 3 => some (.move .absoluteJoint fields.parameters)
  | 6 => some (.wait (fields.parameters.headD ""))
  | _ => none

/-- What a message asks for, if it is the text of one frame. -/
def order? : Message → Option Order
  | .text s =>
    match received? s with
    | some [fields] => fields.order?
    | _ => none
  | .binary _ => none

/-- A frame that goes out is read as its fields. -/
theorem order?_message {frame : Frame} (h : Emitted frame) :
    order? frame.message = frame.fields.order? := by
  have hsealed : ∀ other ∈ [frame], other.Sealed := by
    intro other hother
    rw [List.mem_singleton.mp hother]
    exact h.sealed
  have htext : String.join [frame.text] = frame.text := by simp [String.join]
  have hreceived := received?_texts hsealed
  simp only [List.map_cons, List.map_nil, htext] at hreceived
  simp only [order?, Frame.message, hreceived]

/-- A frame for a setting asks for nothing. -/
theorem order?_settingFrame? {id : Nat} {change : SettingChange Float} {frame : Frame}
    (h : settingFrame? id change = some frame) : frame.fields.order? = none := by
  cases change with
  | quantity q value => cases q <;> cases h <;> rfl
  | motion type => cases h
  | frame reference => cases h

/-- **The frame for an action asks for what comes of the action.** -/
theorem order?_frame? {v : Visit Float} (happlied : v.applied = true) :
    (frame? v.action v.state).bind (fun frame => frame.fields.order?) = v.order? .standard := by
  cases hc : v.action.command with
  | translation | rotation | transformation =>
    simp only [frame?, Visit.order?, happlied, hc, Rapid.poseTarget?]
    cases v.state.pose? with
    | none => rfl
    | some pose => cases v.state.settings.motion <;> rfl
  | axes =>
    simp only [frame?, Visit.order?, happlied, hc, Rapid.jointTarget?]
    cases v.state.axes with
    | none => rfl
    | some joints =>
      have htexts : (joints.toList.map lengthParameter).map Parameter.text =
          joints.toList.map (Decimal.fixed · 3) := List.map_map
      exact congrArg (fun texts => some (Order.move .absoluteJoint texts)) htexts
  | setting which =>
    simp only [frame?, Visit.order?, happlied, hc]
    cases which <;> rfl
  | attachTool =>
    simp only [frame?, Visit.order?, happlied, hc]
    cases v.state.tool <;> rfl
  | _ =>
    simp only [frame?, Visit.order?, happlied, hc]
    rfl

end Abb

namespace Protocol

/-- Settings that were taken back ask for nothing. -/
theorem orders_encodeChanges (id : Nat) (changes : List (SettingChange Float)) :
    (abb.encodeChanges id changes).filterMap Abb.order? = [] := by
  rw [List.filterMap_eq_nil_iff]
  intro m hm
  obtain ⟨n, change, hencode⟩ := exists_of_mem_encodeChanges hm
  obtain ⟨frame, hframe, rfl⟩ := Option.map_eq_some_iff.mp hencode
  exact (Abb.order?_message (.setting hframe)).trans (Abb.order?_settingFrame? hframe)

/-- The messages for an action ask for what its frame does. -/
theorem orders_encode? (a : Action Float) (s : State Float) :
    (abb.encode? a s).toList.filterMap Abb.order? =
      ((Abb.frame? a s).bind fun frame => frame.fields.order?).toList := by
  rw [encode?]
  cases hframe : Abb.frame? a s with
  | none => rfl
  | some frame =>
    have hread := Abb.order?_message (.action hframe)
    rw [Abb.Frame.message] at hread
    cases horder : frame.fields.order? <;> simp [hread, horder]

/-- **The messages for a visit ask for what comes of its action.** -/
theorem orders_delivery (v : Visit Float) :
    (abb.delivery v).messages.filterMap Abb.order? = (v.order? .standard).toList := by
  cases happlied : v.applied with
  | false => simp [delivery, happlied, Visit.order?]
  | true =>
    have hmessages : (abb.delivery v).messages = abb.messages v.action v.device := by
      rw [delivery, happlied]
      rfl
    rw [hmessages]
    by_cases hpop : v.action.command = .popSettings
    · have hnone : v.order? .standard = none := by simp [Visit.order?, hpop]
      rw [hnone, messages, hpop]
      cases v.device.stack.beforePop with
      | none => rfl
      | some before => exact orders_encodeChanges v.action.id _
    · rw [messages_of_ne hpop, orders_encode?]
      exact congrArg Option.toList (Abb.order?_frame? happlied)

variable {f : Fleet Float} {i : Nat} {c : Cursor Float}

/-- **A module and a stream ask for the same motions and pauses.** At every reachable
cursor, whatever waits there: when it is streamed in texts until nothing waits, the motions
and pauses that the messages ask for are those that the lines of the main procedure ask
for, one by one and with the same digits, code that users wrote set aside. They are those
that come of the actions that apply. -/
theorem motions_agree (hf : f.Reachable) (hc : f.cursor? i = some c) (time name : String)
    (comments : CommentMode) :
    let body := (Rapid.draft .standard true (c.visits false)).body
    let look : Look := ⟨Rapid.comment, Rapid.dialect, comments, 4⟩
    let messages := (abb.drain f i).1.flatMap Delivery.messages
    (∃ declarations, (Dialect.rapid.program .standard time name ⟨false, true, comments⟩ c).lines =
      declarations ++ ["", "  PROC main()", "    ConfJ \\Off;", "    ConfL \\Off;", ""]
        ++ look.lines Rapid.Statement.text body ++ ["  ENDPROC", "", "ENDMODULE"]) ∧
    abb.stream? (abb.drain f i).2 i = none ∧
    messages.filterMap Abb.order? = Rapid.orders look body ∧
    Rapid.orders look body = (c.visits false).filterMap (Visit.order? .standard) := by
  intro body look messages
  obtain ⟨hdrain, hend⟩ := drain_eq (p := abb) hc
  have hbody : Rapid.orders look body = (c.visits false).filterMap (Visit.order? .standard) :=
    Rapid.orders_draft rfl .standard _
  refine ⟨⟨_, rfl⟩, hend, ?_, hbody⟩
  -- the calls go through the visits that the module is written from
  have hmessages : messages = (c.visits false).flatMap fun v => (abb.delivery v).messages := by
    rw [Cursor.visits_eq (hf.increasing hc)]
    simp only [messages, hdrain, List.flatMap_map]
    rfl
  rw [hbody, hmessages, List.filterMap_flatMap, List.filterMap_eq_flatMap_toList]
  exact List.flatMap_congr fun v _ => orders_delivery v

/-- Requests for a line, a motion joint by joint, a pause and joint angles, with actions in
between that are rejected or only look like motions. -/
def lineJointsPause : List (Fleet.Operation Float) :=
  [.add "arm" false none [], .start 0 .origin .standard,
    .issue 0 ⟨1, .translation ⟨300, 0, 400⟩ false⟩, .issue 0 ⟨2, .motionMode .joint⟩,
    .issue 0 ⟨3, .translation ⟨0, 0.5, -1e-9⟩ true⟩, .issue 0 ⟨4, .popSettings⟩,
    .issue 0 ⟨5, .comment "MoveL nowhere"⟩, .issue 0 ⟨6, .customCode "MoveL p1;" false⟩,
    .issue 0 ⟨7, .wait 250⟩, .issue 0 ⟨8, .axes ⟨.replicate 6 7.5⟩ false⟩,
    .issue 0 ⟨9, .translation ⟨5, 0, 0⟩ true⟩]

/-- Both ways ask for three motions and a pause. -/
theorem motions_agree_lineJointsPause :
    ∃ c, (Fleet.empty.run lineJointsPause).cursor? 0 = some c ∧
      ((abb.drain (Fleet.empty.run lineJointsPause) 0).1.flatMap Delivery.messages).filterMap
        Abb.order? =
      [.move .linear
          ["300.000", "0.000", "400.000", "1.000000", "0.000000", "0.000000", "0.000000"],
        .move .joint
          ["300.000", "0.500", "400.000", "1.000000", "0.000000", "0.000000", "0.000000"],
        .wait "0.250",
        .move .absoluteJoint ["7.500", "7.500", "7.500", "7.500", "7.500", "7.500"]] := by
  have horders : ((Fleet.empty.run lineJointsPause).cursor? 0).map
      (fun c => (c.visits false).filterMap (Visit.order? .standard)) =
      some [.move .linear
          ["300.000", "0.000", "400.000", "1.000000", "0.000000", "0.000000", "0.000000"],
        .move .joint
          ["300.000", "0.500", "400.000", "1.000000", "0.000000", "0.000000", "0.000000"],
        .wait "0.250",
        .move .absoluteJoint ["7.500", "7.500", "7.500", "7.500", "7.500", "7.500"]] := by
    decide +kernel
  obtain ⟨c, hc, hvisits⟩ := Option.map_eq_some_iff.mp horders
  obtain ⟨-, -, hsame, hbody⟩ := motions_agree ⟨lineJointsPause, rfl⟩ hc "" "" .none
  exact ⟨c, hc, hsame.trans (hbody.trans hvisits)⟩

end Protocol

end RobotMotion.Wire
