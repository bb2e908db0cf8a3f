import RobotMotion.Cursor.Fleet
import RobotMotion.Wire.Abb
import RobotMotion.Wire.Ur

/-!
# Streaming

A cursor is streamed by releasing its actions one by one, carrying each out, and
sending what the protocol has for it. Taking back settings sends every setting
that changed; only the last of these messages carries the identifier of the
action, so that the action is acknowledged once and at the end.
-/

namespace RobotMotion.Wire

/-- The protocols that actions can be streamed in. -/
inductive Protocol where
  | abb
  | ur
deriving DecidableEq, Repr

namespace Protocol

/-- The name of a protocol. -/
def name : Protocol → String
  | .abb => "ABB"
  | .ur => "UR"

/-- The message for a setting that took a value. -/
def encodeSetting? (p : Protocol) (id : Nat) (change : SettingChange Float) : Option Message :=
  match p with
  | .abb => (Abb.settingFrame? id change).map fun f => .text f.text
  | .ur => (Ur.settingWords? id change).map .binary

/-- The message for an action, given the state after it. -/
def encode? (p : Protocol) (action : Action Float) (s : State Float) : Option Message :=
  match p with
  | .abb => (Abb.frame? action s).map fun f => .text f.text
  | .ur => (Ur.actionWords? action s).map .binary

/-- The changes that the protocol has a message for. -/
def sendable (p : Protocol) (changes : List (SettingChange Float)) :
    List (SettingChange Float) :=
  changes.filter fun change => (p.encodeSetting? noAcknowledgment change).isSome

/-- The messages for settings that changed. The last one carries the
identifier. -/
def encodeChanges (p : Protocol) (id : Nat) :
    List (SettingChange Float) → List Message
  | [] => []
  | [change] => (p.encodeSetting? id change).toList
  | change :: rest =>
    (p.encodeSetting? noAcknowledgment change).toList ++ encodeChanges p id rest

/-- The messages for an action that was carried out, given the device after it. -/
def messages (p : Protocol) (action : Action Float) (d : Device Float) : List Message :=
  match action.command with
  | .popSettings =>
    match d.stack.beforePop with
    | some before =>
      p.encodeChanges action.id (p.sendable (d.state.settings.changesSince before))
    | none => []
  | _ => (p.encode? action d.state).toList

/-- Release the oldest action of a cursor, carry it out, and give its messages.
A rejected action has none. -/
def stream? (p : Protocol) (f : Fleet Float) (i : Nat) : Option (List Message × Fleet Float) :=
  (f.next? i).map fun ((action, applied), f) =>
    match applied, f.cursor? i with
    | true, some c => (p.messages action c.device, f)
    | _, _ => ([], f)

end Protocol

end RobotMotion.Wire
